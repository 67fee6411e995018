import K23VM.Proofs.InternedTypes

/-!
# Rec groups that refer to themselves

The kind of a type is known only once the type is interned, while the index of a type is reserved with
its group.  So a reference is converted where it is to a type before its own, and a group is converted
exactly where all its references are, `defineNewRecGroup_converts_iff`.
-/

namespace K23VM

open Wasmparser

/-! ## Converted types -/

section Becomes

variable (R : UnpackedIndex → WasmHeapType → Prop)
  (S : UnpackedIndex → CanonicalizedTypeIndex → Prop)

/-- A type of the parser and the same type with its references replaced: `R` and `S` say by what the
references in a heap type and the supertype may be replaced. -/
def Wasmparser.HeapType.Becomes : HeapType → WasmHeapType → Prop
  | .concrete index, a => R index a
  | .abstract shared ty, a => a.toParser = .abstract shared ty

def Wasmparser.RefType.Becomes (t : RefType) (a : WasmRefType) : Prop :=
  a.nullable = t.nullable ∧ t.heapType.Becomes R a.heapType

def Wasmparser.ValType.Becomes : ValType → WasmValType → Prop
  | .i32, .i32 => True
  | .i64, .i64 => True
  | .f32, .f32 => True
  | .f64, .f64 => True
  | .v128, .v128 => True
  | .ref t, .ref a => t.Becomes R a
  | _, _ => False

def Wasmparser.StorageType.Becomes : StorageType → WasmStorageType → Prop
  | .i8, .i8 => True
  | .i16, .i16 => True
  | .val t, .val a => t.Becomes R a
  | _, _ => False

def Wasmparser.FieldType.Becomes (t : FieldType) (a : WasmFieldType) : Prop :=
  a.mutable = t.mutable ∧ t.elementType.Becomes R a.elementType

def Wasmparser.FuncType.Becomes (t : FuncType) (a : WasmFuncType) : Prop :=
  List.Forall₂ (ValType.Becomes R) t.params a.params
    ∧ List.Forall₂ (ValType.Becomes R) t.results a.results

def Wasmparser.CompositeInnerType.Becomes : CompositeInnerType → WasmCompositeTypeInner → Prop
  | .func t, .func a => t.Becomes R a
  | .array t, .array a => t.Becomes R a.field
  | .struct fields, .struct a => List.Forall₂ (FieldType.Becomes R) fields a.fields
  | _, _ => False

def Wasmparser.CompositeType.Becomes (t : CompositeType) (a : WasmCompositeType) : Prop :=
  a.shared = t.shared ∧ t.inner.Becomes R a.inner

def Wasmparser.SubType.Becomes (t : SubType) (a : WasmSubType) : Prop :=
  a.isFinal = t.isFinal ∧ Option.Rel S t.supertypeIdx a.supertype
    ∧ t.compositeType.Becomes R a.compositeType

end Becomes

/-! ### References -/

section References

variable {R R' : UnpackedIndex → WasmHeapType → Prop}
  {S S' : UnpackedIndex → CanonicalizedTypeIndex → Prop}

theorem Wasmparser.HeapType.Becomes.mono {t : HeapType} {a : WasmHeapType} (h : t.Becomes R a)
    (hR : ∀ i ∈ t.indices, ∀ b, R i b → R' i b) : t.Becomes R' a := by
  cases t with
  | concrete index => exact hR index List.mem_cons_self a h
  | abstract => exact h

theorem Wasmparser.ValType.Becomes.mono {t : ValType} {a : WasmValType} (h : t.Becomes R a)
    (hR : ∀ i ∈ t.indices, ∀ b, R i b → R' i b) : t.Becomes R' a := by
  cases t <;> cases a
  case ref.ref => exact ⟨h.1, h.2.mono hR⟩
  all_goals exact h

theorem Wasmparser.FieldType.Becomes.mono {t : FieldType} {a : WasmFieldType} (h : t.Becomes R a)
    (hR : ∀ i ∈ t.indices, ∀ b, R i b → R' i b) : t.Becomes R' a := by
  obtain ⟨mutable, t⟩ := t
  obtain ⟨mutable', a⟩ := a
  refine ⟨h.1, ?_⟩
  have h := h.2
  cases t <;> cases a
  case val.val => exact ValType.Becomes.mono h hR
  all_goals exact h

/-- The references of the parts of a list are references of the list. -/
theorem forall₂_mono {α β : Type} {ind : α → List UnpackedIndex} {B B' : α → β → Prop}
    {l : List α} {as : List β} (h : List.Forall₂ B l as)
    (hR : ∀ i ∈ l.flatMap ind, ∀ b, R i b → R' i b)
    (hB : ∀ t a, B t a → (∀ i ∈ ind t, ∀ b, R i b → R' i b) → B' t a) : List.Forall₂ B' l as :=
  forall₂_imp_mem h fun t ht a _ hta =>
    hB t a hta fun i hi => hR i (List.mem_flatMap.2 ⟨t, ht, hi⟩)

theorem Wasmparser.CompositeType.Becomes.mono {t : CompositeType} {a : WasmCompositeType}
    (h : t.Becomes R a) (hR : ∀ i ∈ t.indices, ∀ b, R i b → R' i b) : t.Becomes R' a := by
  obtain ⟨t, shared⟩ := t
  obtain ⟨a, shared'⟩ := a
  refine ⟨h.1, ?_⟩
  have h := h.2
  cases t <;> cases a
  case func.func t a =>
    refine ⟨forall₂_mono h.1 (fun i hi => hR i (List.mem_append_left _ hi)) ?_,
      forall₂_mono h.2 (fun i hi => hR i (List.mem_append_right _ hi)) ?_⟩
    · exact fun _ _ h hR => h.mono hR
    · exact fun _ _ h hR => h.mono hR
  case array.array => exact FieldType.Becomes.mono h hR
  case struct.struct => exact forall₂_mono h hR fun _ _ h hR => h.mono hR
  all_goals exact h

theorem Wasmparser.SubType.Becomes.mono {t : SubType} {a : WasmSubType} (h : t.Becomes R S a)
    (hR : ∀ i ∈ t.compositeType.indices, ∀ b, R i b → R' i b)
    (hS : ∀ i ∈ t.supertypeIdx.toList, ∀ b, S i b → S' i b) : t.Becomes R' S' a := by
  obtain ⟨isFinal, supertype, composite⟩ := t
  obtain ⟨isFinal', supertype', composite'⟩ := a
  obtain ⟨hf, hs, hc⟩ := h
  refine ⟨hf, ?_, hc.mono hR⟩
  cases hs with
  | none => exact .none
  | some h => exact .some (hS _ (by simp) _ h)

theorem Wasmparser.HeapType.exists_becomes {t : HeapType} :
    (∃ a, t.Becomes R a) ↔ ∀ i ∈ t.indices, ∃ b, R i b := by
  cases t with
  | concrete index => simp [HeapType.Becomes, HeapType.indices]
  | abstract shared ty =>
    refine iff_of_true ⟨⟨shared, WasmparserTypeConverter.convertAbstractHeapType ty⟩, ?_⟩ ?_
    · cases ty <;> rfl
    · simp [HeapType.indices]

theorem Wasmparser.ValType.exists_becomes {t : ValType} :
    (∃ a, t.Becomes R a) ↔ ∀ i ∈ t.indices, ∃ b, R i b := by
  cases t with
  | ref t =>
    refine Iff.trans ?_ HeapType.exists_becomes
    constructor
    · rintro ⟨a, h⟩
      cases a with
      | ref a => exact ⟨a.heapType, h.2⟩
      | _ => cases h
    · rintro ⟨a, h⟩
      exact ⟨.ref ⟨t.nullable, a⟩, rfl, h⟩
  | i32 => exact iff_of_true ⟨.i32, trivial⟩ (by simp [ValType.indices])
  | i64 => exact iff_of_true ⟨.i64, trivial⟩ (by simp [ValType.indices])
  | f32 => exact iff_of_true ⟨.f32, trivial⟩ (by simp [ValType.indices])
  | f64 => exact iff_of_true ⟨.f64, trivial⟩ (by simp [ValType.indices])
  | v128 => exact iff_of_true ⟨.v128, trivial⟩ (by simp [ValType.indices])

theorem Wasmparser.FieldType.exists_becomes {t : FieldType} :
    (∃ a, t.Becomes R a) ↔ ∀ i ∈ t.indices, ∃ b, R i b := by
  obtain ⟨mutable, t⟩ := t
  cases t with
  | val t =>
    refine Iff.trans ?_ ValType.exists_becomes
    constructor
    · rintro ⟨⟨mutable', a⟩, -, h⟩
      cases a with
      | val a => exact ⟨a, h⟩
      | _ => cases h
    · rintro ⟨a, h⟩
      exact ⟨⟨mutable, .val a⟩, rfl, h⟩
  | i8 => exact iff_of_true ⟨⟨mutable, .i8⟩, rfl, trivial⟩ (by simp [FieldType.indices,
      StorageType.indices])
  | i16 => exact iff_of_true ⟨⟨mutable, .i16⟩, rfl, trivial⟩ (by simp [FieldType.indices,
      StorageType.indices])

theorem exists_forall₂ {α β : Type} (ind : α → List UnpackedIndex) (B : α → β → Prop)
    (hB : ∀ t, (∃ a, B t a) ↔ ∀ i ∈ ind t, ∃ b, R i b) (l : List α) :
    (∃ as, List.Forall₂ B l as) ↔ ∀ i ∈ l.flatMap ind, ∃ b, R i b := by
  induction l with
  | nil => exact iff_of_true ⟨[], .nil⟩ (by simp)
  | cons t l ih =>
    rw [List.flatMap_cons, List.forall_mem_append, ← hB t, ← ih]
    constructor
    · rintro ⟨as, _ | ⟨h, hl⟩⟩
      exact ⟨⟨_, h⟩, ⟨_, hl⟩⟩
    · rintro ⟨⟨a, h⟩, ⟨as, hl⟩⟩
      exact ⟨a :: as, .cons h hl⟩

/-- A continuation. -/
def Wasmparser.CompositeInnerType.IsCont : CompositeInnerType → Prop
  | .cont _ => True
  | _ => False

theorem Wasmparser.CompositeType.exists_becomes {t : CompositeType} (ht : ¬ t.inner.IsCont) :
    (∃ a, t.Becomes R a) ↔ ∀ i ∈ t.indices, ∃ b, R i b := by
  obtain ⟨t, shared⟩ := t
  cases t with
  | func t =>
    have hlist := exists_forall₂ ValType.indices (ValType.Becomes R) fun _ => ValType.exists_becomes
    unfold CompositeType.indices CompositeInnerType.indices FuncType.indices
    rw [List.forall_mem_append, ← hlist, ← hlist]
    constructor
    · rintro ⟨⟨a, shared'⟩, -, h⟩
      cases a with
      | func a => exact ⟨⟨_, h.1⟩, ⟨_, h.2⟩⟩
      | _ => cases h
    · rintro ⟨⟨params, hp⟩, ⟨results, hr⟩⟩
      exact ⟨⟨.func ⟨params, results⟩, shared⟩, rfl, hp, hr⟩
  | array t =>
    refine Iff.trans ?_ FieldType.exists_becomes
    constructor
    · rintro ⟨⟨a, shared'⟩, -, h⟩
      cases a with
      | array a => exact ⟨_, h⟩
      | _ => cases h
    · rintro ⟨a, h⟩
      exact ⟨⟨.array ⟨a⟩, shared⟩, rfl, h⟩
  | struct fields =>
    refine Iff.trans ?_ (exists_forall₂ FieldType.indices (FieldType.Becomes R)
      (fun _ => FieldType.exists_becomes) fields)
    constructor
    · rintro ⟨⟨a, shared'⟩, -, h⟩
      cases a with
      | struct a => exact ⟨_, h⟩
      | _ => cases h
    · rintro ⟨as, h⟩
      exact ⟨⟨.struct ⟨as⟩, shared⟩, rfl, h⟩
  | cont index => exact absurd trivial ht

theorem Wasmparser.SubType.exists_becomes {t : SubType} (ht : ¬ t.compositeType.inner.IsCont)
    (hS : ∀ i, t.supertypeIdx = some i → ∃ b, S i b) :
    (∃ a, t.Becomes R S a) ↔ ∀ i ∈ t.compositeType.indices, ∃ b, R i b := by
  rw [← CompositeType.exists_becomes ht]
  constructor
  · rintro ⟨a, -, -, h⟩
    exact ⟨_, h⟩
  · rintro ⟨a, h⟩
    obtain ⟨isFinal, supertype, composite⟩ := t
    cases supertype with
    | none => exact ⟨⟨isFinal, none, a⟩, rfl, .none, h⟩
    | some i =>
      obtain ⟨b, hb⟩ := hS i rfl
      exact ⟨⟨isFinal, some b, a⟩, rfl, .some hb, h⟩

end References

namespace WasmparserTypeConverter

variable (c : WasmparserTypeConverter)

/-- What a reference in a heap type is converted to. -/
def Heap (index : UnpackedIndex) (a : WasmHeapType) : Prop := c.lookupHeapType index = .ok a

/-- What the reference to a supertype is converted to. -/
def Super (index : UnpackedIndex) (a : CanonicalizedTypeIndex) : Prop :=
  ∃ k, c.lookupTypeIndex index = .ok k ∧ a = .module k

variable {c}

theorem convertHeapType_eq_ok {t : HeapType} {a : WasmHeapType} :
    c.convertHeapType t = .ok a ↔ t.Becomes c.Heap a := by
  cases t with
  | concrete index => rfl
  | abstract shared ty =>
    unfold convertHeapType HeapType.Becomes
    constructor
    · intro h
      obtain rfl := Except.ok.inj h
      cases ty <;> rfl
    · intro h
      obtain ⟨shared', ty'⟩ := a
      cases ty' <;> simp only [WasmHeapType.toParser, reduceCtorEq] at h
      all_goals
        obtain ⟨rfl, rfl⟩ := HeapType.abstract.inj h
        rfl

theorem convertRefType_eq_ok {t : RefType} {a : WasmRefType} :
    c.convertRefType t = .ok a ↔ t.Becomes c.Heap a := by
  unfold convertRefType RefType.Becomes
  rw [bind_eq_ok]
  constructor
  · rintro ⟨ht, h, ha⟩
    obtain rfl := Except.ok.inj ha
    exact ⟨rfl, convertHeapType_eq_ok.1 h⟩
  · obtain ⟨nullable, ht⟩ := a
    rintro ⟨rfl, h⟩
    exact ⟨ht, convertHeapType_eq_ok.2 h, rfl⟩

theorem convertValType_eq_ok {t : ValType} {a : WasmValType} :
    c.convertValType t = .ok a ↔ t.Becomes c.Heap a := by
  cases t with
  | ref t =>
    unfold convertValType
    rw [bind_eq_ok]
    constructor
    · rintro ⟨r, h, ha⟩
      obtain rfl := Except.ok.inj ha
      exact convertRefType_eq_ok.1 h
    · intro h
      cases a with
      | ref r => exact ⟨r, convertRefType_eq_ok.2 h, rfl⟩
      | _ => cases h
  | _ => cases a <;> simp [convertValType, ValType.Becomes, pure, Except.pure]

theorem convertStorageType_eq_ok {t : StorageType} {a : WasmStorageType} :
    c.convertStorageType t = .ok a ↔ t.Becomes c.Heap a := by
  cases t with
  | val t =>
    unfold convertStorageType
    rw [bind_eq_ok]
    constructor
    · rintro ⟨r, h, ha⟩
      obtain rfl := Except.ok.inj ha
      exact convertValType_eq_ok.1 h
    · intro h
      cases a with
      | val r => exact ⟨r, convertValType_eq_ok.2 h, rfl⟩
      | _ => cases h
  | _ => cases a <;> simp [convertStorageType, StorageType.Becomes, pure, Except.pure]

theorem convertFieldType_eq_ok {t : FieldType} {a : WasmFieldType} :
    c.convertFieldType t = .ok a ↔ t.Becomes c.Heap a := by
  unfold convertFieldType FieldType.Becomes
  rw [bind_eq_ok]
  constructor
  · rintro ⟨r, h, ha⟩
    obtain rfl := Except.ok.inj ha
    exact ⟨rfl, convertStorageType_eq_ok.1 h⟩
  · obtain ⟨mutable, r⟩ := a
    rintro ⟨rfl, h⟩
    exact ⟨r, convertStorageType_eq_ok.2 h, rfl⟩

/-- A list is converted place by place. -/
theorem mapM_becomes {α β : Type} {conv : α → Except Fault β} {B : α → β → Prop}
    (h : ∀ {t a}, conv t = .ok a ↔ B t a) {l : List α} {as : List β} :
    l.mapM conv = .ok as ↔ List.Forall₂ B l as := by
  have hB : (fun t a => conv t = .ok a) = B := by
    funext t a
    exact propext h
  rw [mapM_eq_ok_iff, hB]

theorem convertFuncType_eq_ok {t : FuncType} {a : WasmFuncType} :
    c.convertFuncType t = .ok a ↔ t.Becomes c.Heap a := by
  unfold convertFuncType FuncType.Becomes
  rw [bind_eq_ok]
  constructor
  · rintro ⟨params, hp, h⟩
    obtain ⟨results, hr, ha⟩ := bind_eq_ok.1 h
    obtain rfl := Except.ok.inj ha
    exact ⟨(mapM_becomes convertValType_eq_ok).1 hp, (mapM_becomes convertValType_eq_ok).1 hr⟩
  · rintro ⟨hp, hr⟩
    refine ⟨a.params, (mapM_becomes convertValType_eq_ok).2 hp, ?_⟩
    exact bind_eq_ok.2 ⟨a.results, (mapM_becomes convertValType_eq_ok).2 hr, rfl⟩

theorem convertCompositeType_eq_ok {t : CompositeType} {a : WasmCompositeType} :
    c.convertCompositeType t = .ok a ↔ t.Becomes c.Heap a := by
  obtain ⟨inner, shared⟩ := t
  obtain ⟨inner', shared'⟩ := a
  unfold convertCompositeType CompositeType.Becomes
  cases inner with
  | func t =>
    dsimp only
    rw [bind_eq_ok]
    constructor
    · rintro ⟨f, h, ha⟩
      obtain ⟨rfl, rfl⟩ := WasmCompositeType.mk.inj (Except.ok.inj ha)
      exact ⟨rfl, convertFuncType_eq_ok.1 h⟩
    · rintro ⟨rfl, h⟩
      cases inner' with
      | func f => exact ⟨f, convertFuncType_eq_ok.2 h, rfl⟩
      | _ => cases h
  | array t =>
    dsimp only
    unfold convertArrayType
    rw [bind_eq_ok]
    constructor
    · rintro ⟨f, hf, ha⟩
      obtain ⟨r, h, hr⟩ := bind_eq_ok.1 hf
      obtain rfl := Except.ok.inj hr
      obtain ⟨rfl, rfl⟩ := WasmCompositeType.mk.inj (Except.ok.inj ha)
      exact ⟨rfl, convertFieldType_eq_ok.1 h⟩
    · rintro ⟨rfl, h⟩
      cases inner' with
      | array f => exact ⟨f, bind_eq_ok.2 ⟨f.field, convertFieldType_eq_ok.2 h, rfl⟩, rfl⟩
      | _ => cases h
  | struct fields =>
    dsimp only
    unfold convertStructType
    rw [bind_eq_ok]
    constructor
    · rintro ⟨f, hf, ha⟩
      obtain ⟨r, h, hr⟩ := bind_eq_ok.1 hf
      obtain rfl := Except.ok.inj hr
      obtain ⟨rfl, rfl⟩ := WasmCompositeType.mk.inj (Except.ok.inj ha)
      exact ⟨rfl, (mapM_becomes convertFieldType_eq_ok).1 h⟩
    · rintro ⟨rfl, h⟩
      cases inner' with
      | struct f =>
        exact ⟨f, bind_eq_ok.2 ⟨f.fields, (mapM_becomes convertFieldType_eq_ok).2 h, rfl⟩, rfl⟩
      | _ => cases h
  | cont index =>
    refine iff_of_false (fun h => ?_) ?_
    · cases h
    · rintro ⟨-, h⟩
      cases h

theorem convertSupertype_eq_ok {o : Option UnpackedIndex} {a : Option CanonicalizedTypeIndex} :
    o.mapM (fun index => do
      pure (CanonicalizedTypeIndex.module (← c.lookupTypeIndex index))) = .ok a
      ↔ Option.Rel c.Super o a := by
  cases o with
  | none =>
    constructor
    · intro h
      obtain rfl := Except.ok.inj h
      exact .none
    · rintro ⟨⟩
      rfl
  | some index =>
    constructor
    · intro h
      obtain ⟨i, h, ha⟩ := bind_eq_ok.1 h
      obtain ⟨k, hk, hi⟩ := bind_eq_ok.1 h
      obtain rfl := Except.ok.inj hi
      obtain rfl := Except.ok.inj ha
      exact .some ⟨k, hk, rfl⟩
    · rintro (⟨k, hk, rfl⟩ | _)
      rw [Option.mapM_some, hk]
      rfl

theorem convertSubType_eq_ok {t : SubType} {a : WasmSubType} :
    c.convertSubType t = .ok a ↔ t.Becomes c.Heap c.Super a := by
  obtain ⟨isFinal, supertype, composite⟩ := a
  unfold convertSubType SubType.Becomes
  rw [bind_eq_ok]
  constructor
  · rintro ⟨s, hs, h⟩
    obtain ⟨r, hr, ha⟩ := bind_eq_ok.1 h
    obtain ⟨rfl, rfl, rfl⟩ := WasmSubType.mk.inj (Except.ok.inj ha)
    exact ⟨rfl, convertSupertype_eq_ok.1 hs, convertCompositeType_eq_ok.1 hr⟩
  · rintro ⟨rfl, hs, hr⟩
    refine ⟨supertype, convertSupertype_eq_ok.2 hs, ?_⟩
    exact bind_eq_ok.2 ⟨composite, convertCompositeType_eq_ok.2 hr, rfl⟩

end WasmparserTypeConverter

/-! ## Kinds -/

section Kinds

/-- The reference to a type, with the constructor for its kind. -/
def Wasmparser.CompositeInnerType.NamedBy (k : ℕ) : CompositeInnerType → WasmHeapTypeInner → Prop
  | .func _, h => h = .concreteFunc (.module k)
  | .array _, h => h = .concreteArray (.module k)
  | .struct _, h => h = .concreteStruct (.module k)
  | .cont _, _ => False

def Wasmparser.CompositeInnerType.SameKind : CompositeInnerType → WasmCompositeTypeInner → Prop
  | .func _, .func _ => True
  | .array _, .array _ => True
  | .struct _, .struct _ => True
  | _, _ => False

theorem Wasmparser.CompositeInnerType.SameKind.exists_namedBy {t : CompositeInnerType}
    {a : WasmCompositeTypeInner} (h : t.SameKind a) (k : ℕ) : ∃ b, t.NamedBy k b := by
  cases t with
  | cont => cases h
  | _ => exact ⟨_, rfl⟩

variable (v : ValidatorTypes)

/-- What a reference in a heap type should become, where `seen` has the reserved indices. -/
def Names (seen : List (ℕ × ℕ)) : UnpackedIndex → WasmHeapType → Prop
  | .id y, h => ∃ k, seen.lookup y = some k ∧ h.shared = (v.subType y).compositeType.shared
    ∧ (v.subType y).compositeType.inner.NamedBy k h.ty
  | _, _ => False

/-- What the reference to a supertype should become. -/
def NamesSuper (seen : List (ℕ × ℕ)) : UnpackedIndex → CanonicalizedTypeIndex → Prop
  | .id y, a => ∃ k, seen.lookup y = some k ∧ a = .module k
  | _, _ => False

/-- Each type is of the kind of the type with the id at its place. -/
def KindsOk (ids : List ℕ) (tys : List WasmSubType) : Prop :=
  ∀ (j : ℕ) ty, tys[j]? = some ty → ∃ y, ids[j]? = some y
    ∧ ty.compositeType.shared = (v.subType y).compositeType.shared
    ∧ (v.subType y).compositeType.inner.SameKind ty.compositeType.inner

variable {v}

theorem Wasmparser.CompositeType.Becomes.kind {R : UnpackedIndex → WasmHeapType → Prop}
    {t : CompositeType} {a : WasmCompositeType} (h : t.Becomes R a) :
    a.shared = t.shared ∧ t.inner.SameKind a.inner := by
  obtain ⟨t, shared⟩ := t
  obtain ⟨a, shared'⟩ := a
  refine ⟨h.1, ?_⟩
  have h := h.2
  cases t <;> cases a <;> trivial

theorem concreteHeapType_eq_ok {c : WasmparserTypeConverter} {k : ℕ} {ty : WasmSubType}
    (hty : c.wasmTypes[k]? = some ty) {t : CompositeInnerType}
    (hkind : t.SameKind ty.compositeType.inner) {h : WasmHeapType} :
    c.concreteHeapType k = .ok h ↔ h.shared = ty.compositeType.shared ∧ t.NamedBy k h.ty := by
  obtain ⟨isFinal, supertype, ⟨inner, shared⟩⟩ := ty
  obtain ⟨shared', inner'⟩ := h
  unfold WasmparserTypeConverter.concreteHeapType
  rw [hty]
  cases t <;> cases inner
  case func.func => simp [CompositeInnerType.NamedBy, pure, Except.pure, eq_comm]
  case array.array => simp [CompositeInnerType.NamedBy, pure, Except.pure, eq_comm]
  case struct.struct => simp [CompositeInnerType.NamedBy, pure, Except.pure, eq_comm]
  all_goals cases hkind

/-- A reference is converted where it is to a type that is interned. -/
theorem heap_id_iff {c : WasmparserTypeConverter} {ids : List ℕ}
    (hseen : ∀ y k, c.seenTypes.lookup y = some k ↔ ids[k]? = some y)
    (hkinds : KindsOk v ids c.wasmTypes) {y : ℕ} {h : WasmHeapType} :
    c.Heap (.id y) h ↔ ∃ k, c.seenTypes.lookup y = some k ∧ k < c.wasmTypes.length
      ∧ h.shared = (v.subType y).compositeType.shared
      ∧ (v.subType y).compositeType.inner.NamedBy k h.ty := by
  unfold WasmparserTypeConverter.Heap WasmparserTypeConverter.lookupHeapType
    WasmparserTypeConverter.lookupTypeIndex
  rw [bind_eq_ok]
  refine exists_congr fun k => ?_
  rw [unwrap_eq_ok]
  refine and_congr_right fun hk => ?_
  rcases hty : c.wasmTypes[k]? with _ | ty
  · have hlt := List.getElem?_eq_none_iff.1 hty
    refine iff_of_false (fun h => ?_) fun h => Nat.not_lt.2 hlt h.1
    unfold WasmparserTypeConverter.concreteHeapType at h
    rw [hty] at h
    cases h
  · obtain ⟨y', hy', hshared, hkind⟩ := hkinds k ty hty
    obtain rfl := Option.some.inj (((hseen y k).1 hk).symm.trans hy')
    rw [concreteHeapType_eq_ok hty hkind, hshared,
      and_iff_right (List.getElem?_eq_some_iff.1 hty).1]

end Kinds

/-! ## Groups -/

section Group

variable {v : ValidatorTypes} {debug : Bool} {moduleTypes ids : List ℕ}

/-- The references of a member are to ids with a reserved index, and the member is not a
continuation. -/
def MemberOk (v : ValidatorTypes) (ids : List ℕ) (x : ℕ) : Prop :=
  ¬ (v.subType x).compositeType.inner.IsCont
    ∧ ∀ r ∈ (v.subType x).indices, ∃ y k : ℕ, r = .id y ∧ ids[k]? = some y

/-- The references in the heap types of the member are to types with an index below `n`. -/
def Below (v : ValidatorTypes) (ids : List ℕ) (n x : ℕ) : Prop :=
  ∀ y k : ℕ, .id y ∈ (v.subType x).compositeType.indices → ids[k]? = some y → k < n

theorem MemberOk.composite {x : ℕ} (h : MemberOk v ids x) :
    ∀ r ∈ (v.subType x).compositeType.indices, ∃ y k : ℕ, r = .id y ∧ ids[k]? = some y :=
  fun r hr => h.2 r (List.mem_append_right _ hr)

theorem super_id_iff {c : WasmparserTypeConverter} {y : ℕ} {a : CanonicalizedTypeIndex} :
    c.Super (.id y) a ↔ NamesSuper c.seenTypes (.id y) a := by
  unfold WasmparserTypeConverter.Super NamesSuper WasmparserTypeConverter.lookupTypeIndex
  simp only [unwrap_eq_ok]

/-- A member is converted where its references are to types that are interned. -/
theorem convertSubType_exists {c : WasmparserTypeConverter}
    (hseen : ∀ y k, c.seenTypes.lookup y = some k ↔ ids[k]? = some y)
    (hkinds : KindsOk v ids c.wasmTypes) {x : ℕ} (hx : MemberOk v ids x) :
    (∃ ty, c.convertSubType (v.subType x) = .ok ty) ↔ Below v ids c.wasmTypes.length x := by
  have hsuper : ∀ i, (v.subType x).supertypeIdx = some i → ∃ b, c.Super i b := by
    intro i hi
    obtain ⟨y, k, rfl, hk⟩ := hx.2 i (List.mem_append_left _ (by simp [hi]))
    exact ⟨.module k, super_id_iff.2 ⟨k, (hseen y k).2 hk, rfl⟩⟩
  refine Iff.trans (exists_congr fun ty => c.convertSubType_eq_ok) ?_
  rw [SubType.exists_becomes hx.1 hsuper]
  constructor
  · intro h y k hy hk
    obtain ⟨b, hb⟩ := h (.id y) hy
    obtain ⟨k', hk', hlt, -⟩ := (heap_id_iff hseen hkinds).1 hb
    obtain rfl := Option.some.inj (((hseen y k).2 hk).symm.trans hk')
    exact hlt
  · intro h i hi
    obtain ⟨y, k, rfl, hk⟩ := hx.composite i hi
    have hlt := h y k hi hk
    obtain ⟨y', hy', -, hkind⟩ := hkinds k _ (List.getElem?_eq_getElem hlt)
    obtain rfl := Option.some.inj (hk.symm.trans hy')
    obtain ⟨b, hb⟩ := hkind.exists_namedBy k
    exact ⟨⟨_, b⟩, (heap_id_iff hseen hkinds).2 ⟨k, (hseen y k).2 hk, hlt, rfl, hb⟩⟩

/-- A converted member. -/
theorem becomes_of_convertSubType {c : WasmparserTypeConverter}
    (hseen : ∀ y k, c.seenTypes.lookup y = some k ↔ ids[k]? = some y)
    (hkinds : KindsOk v ids c.wasmTypes) {x : ℕ} (hx : MemberOk v ids x) {ty : WasmSubType}
    (h : c.convertSubType (v.subType x) = .ok ty) :
    (v.subType x).Becomes (Names v c.seenTypes) (NamesSuper c.seenTypes) ty := by
  have h := WasmparserTypeConverter.convertSubType_eq_ok.1 h
  refine h.mono (fun i hi b hb => ?_) fun i hi b hb => ?_
  · obtain ⟨y, k, rfl, -⟩ := hx.composite i hi
    obtain ⟨k', hk', -, hnamed⟩ := (heap_id_iff hseen hkinds).1 hb
    exact ⟨k', hk', hnamed⟩
  · obtain ⟨y, k, rfl, -⟩ := hx.2 i (List.mem_append_left _ hi)
    exact super_id_iff.1 hb

/-- A group of which the types are being defined: indices are reserved for the ids, the types so far are
of the right kinds, and the members `elems` come next. -/
structure Defining (v : ValidatorTypes) (ids : List ℕ) (b : ModuleTypesBuilder) (elems : List ℕ) :
    Prop where
  inProgress : b.recGroupInProgress.isSome = true
  seen : ∀ y k, b.seenTypes.lookup y = some k ↔ ids[k]? = some y
  kinds : KindsOk v ids b.types.wasmTypes
  place : ∀ i x, elems[i]? = some x → ids[b.types.wasmTypes.length + i]? = some x
  members : ∀ x ∈ elems, MemberOk v ids x

/-- A type is added. -/
def pushType (b : ModuleTypesBuilder) (ty : WasmSubType) : ModuleTypesBuilder :=
  { b with types := { b.types with wasmTypes := b.types.wasmTypes ++ [ty] } }

section Defining

variable {b : ModuleTypesBuilder} {x : ℕ} {elems : List ℕ}

theorem Defining.wasmSubTypeInRecGroup (h : Defining v ids b (x :: elems)) (ty : WasmSubType) :
    b.wasmSubTypeInRecGroup debug x ty = .ok (pushType b ty) := by
  have hx : b.seenTypes.lookup x = some b.types.wasmTypes.length := (h.seen _ _).2 (h.place 0 x rfl)
  unfold ModuleTypesBuilder.wasmSubTypeInRecGroup
  rw [h.inProgress, hx, decide_eq_true rfl, debugAssert_true]
  rfl

/-- The next member, when its type was converted. -/
theorem Defining.push (h : Defining v ids b (x :: elems)) {ty : WasmSubType}
    (hty : WasmparserTypeConverter.convertSubType ⟨b.seenTypes, b.types.wasmTypes, moduleTypes⟩
      (v.subType x) = .ok ty) : Defining v ids (pushType b ty) elems := by
  have hlen : (pushType b ty).types.wasmTypes.length = b.types.wasmTypes.length + 1 := by
    simp [pushType]
  have hkind := (becomes_of_convertSubType (c := ⟨b.seenTypes, b.types.wasmTypes, moduleTypes⟩) h.seen
    h.kinds (h.members x List.mem_cons_self) hty).2.2.kind
  refine ⟨h.inProgress, h.seen, fun j ty' hj => ?_, fun i y hy => ?_,
    fun y hy => h.members y (List.mem_cons_of_mem _ hy)⟩
  · have hj : (b.types.wasmTypes ++ [ty])[j]? = some ty' := hj
    by_cases hlt : j < b.types.wasmTypes.length
    · rw [List.getElem?_append_left hlt] at hj
      exact h.kinds j ty' hj
    · rw [List.getElem?_append_right (Nat.le_of_not_lt hlt)] at hj
      obtain ⟨hle, rfl⟩ : j - b.types.wasmTypes.length = 0 ∧ ty = ty' := by
        simpa [List.getElem?_singleton] using hj
      obtain rfl : b.types.wasmTypes.length = j := by omega
      exact ⟨x, h.place 0 x rfl, hkind⟩
  · rw [hlen, Nat.add_assoc, Nat.add_comm 1 i]
    exact h.place (i + 1) y hy

theorem defineTypes_exists (debug : Bool) (moduleTypes : List ℕ) :
    ∀ {elems : List ℕ} {b : ModuleTypesBuilder}, Defining v ids b elems →
    ((∃ b', ModuleTypesBuilder.defineTypes debug moduleTypes v b elems = .ok b')
      ↔ ∀ i x, elems[i]? = some x → Below v ids (b.types.wasmTypes.length + i) x)
  | [], b, _ => iff_of_true ⟨b, rfl⟩ (by simp)
  | x :: elems, b, h => by
    have hconv := convertSubType_exists (c := ⟨b.seenTypes, b.types.wasmTypes, moduleTypes⟩) h.seen
      h.kinds (h.members x List.mem_cons_self)
    have hlen : ∀ ty, (pushType b ty).types.wasmTypes.length = b.types.wasmTypes.length + 1 := by
      simp [pushType]
    constructor
    · rintro ⟨b', hb⟩ i y hy
      obtain ⟨ty, hty, hb⟩ := bind_eq_ok.1 hb
      rw [h.wasmSubTypeInRecGroup] at hb
      cases i with
      | zero =>
        obtain rfl := Option.some.inj hy
        exact hconv.1 ⟨ty, hty⟩
      | succ i =>
        have := (defineTypes_exists debug moduleTypes (h.push hty)).1 ⟨b', hb⟩ i y hy
        rwa [hlen, Nat.add_assoc, Nat.add_comm 1 i] at this
    · intro hall
      obtain ⟨ty, hty⟩ := hconv.2 (hall 0 x rfl)
      have hrest : ∀ i y, elems[i]? = some y →
          Below v ids ((pushType b ty).types.wasmTypes.length + i) y := by
        intro i y hy
        rw [hlen, Nat.add_assoc, Nat.add_comm 1 i]
        exact hall (i + 1) y hy
      obtain ⟨b', hb'⟩ := (defineTypes_exists debug moduleTypes (h.push hty)).2 hrest
      exact ⟨b', bind_eq_ok.2 ⟨ty, hty, bind_eq_ok.2 ⟨_, h.wasmSubTypeInRecGroup ty, hb'⟩⟩⟩

/-- The members of a group are converted one after the other. -/
theorem defineTypes_becomes : ∀ {elems : List ℕ} {b b' : ModuleTypesBuilder}, Defining v ids b elems →
    ModuleTypesBuilder.defineTypes debug moduleTypes v b elems = .ok b' →
    ∃ tys, b' = { b with types := { b.types with wasmTypes := b.types.wasmTypes ++ tys } }
      ∧ List.Forall₂ (fun x ty =>
        (v.subType x).Becomes (Names v b.seenTypes) (NamesSuper b.seenTypes) ty) elems tys
  | [], b, b', _, hb => by
    obtain rfl := Except.ok.inj hb
    exact ⟨[], by simp, .nil⟩
  | x :: elems, b, b', h, hb => by
    obtain ⟨ty, hty, hb⟩ := bind_eq_ok.1 hb
    rw [h.wasmSubTypeInRecGroup] at hb
    obtain ⟨tys, rfl, htys⟩ := defineTypes_becomes (h.push hty) hb
    refine ⟨ty :: tys, by simp [pushType], .cons ?_ htys⟩
    exact becomes_of_convertSubType (c := ⟨b.seenTypes, b.types.wasmTypes, moduleTypes⟩) h.seen h.kinds
      (h.members x List.mem_cons_self) hty

end Defining

end Group

/-! ## New groups -/

section NewGroup

variable {v : ValidatorTypes} {debug : Bool} {moduleTypes gs all : List ℕ} {b : ModuleTypesBuilder} {g : ℕ}

theorem exists_place : ∀ (gs : List ℕ) (j : ℕ), j < (internedIds v gs).length →
    ∃ pre g post, gs = pre ++ g :: post ∧ (internedIds v pre).length ≤ j
      ∧ j < (internedIds v pre).length + (v.recGroupElements g).length
  | [], j, h => absurd h (Nat.not_lt_zero j)
  | g :: gs, j, h => by
    by_cases hlt : j < (v.recGroupElements g).length
    · exact ⟨[], g, gs, rfl, Nat.zero_le _, by simpa [internedIds] using hlt⟩
    · have hlen : ∀ l, (internedIds v (g :: l)).length
          = (v.recGroupElements g).length + (internedIds v l).length := by
        simp [internedIds]
      rw [hlen] at h
      obtain ⟨pre, g', post, rfl, hle, hlt'⟩ :=
        exists_place gs (j - (v.recGroupElements g).length) (by omega)
      refine ⟨g :: pre, g', post, rfl, ?_, ?_⟩ <;> rw [hlen] <;> omega

/-- The interned types are of the right kinds. -/
theorem BuilderOk.kinds (hok : BuilderOk v b gs) : KindsOk v (internedIds v gs) b.types.wasmTypes := by
  intro j ty hj
  have hlt := (List.getElem?_eq_some_iff.1 hj).1
  rw [hok.length] at hlt
  obtain ⟨pre, g, post, rfl, hle, hlt'⟩ := exists_place _ j hlt
  obtain ⟨x, ty', hx, hty', c, hconv, -⟩ := hok.getElem? rfl hle hlt'
  obtain rfl := Option.some.inj (hj.symm.trans hty')
  refine ⟨x, ?_, (WasmparserTypeConverter.convertSubType_eq_ok.1 hconv).2.2.kind⟩
  have hids : internedIds v (g :: post) = v.recGroupElements g ++ internedIds v post :=
    List.flatMap_cons
  rw [internedIds_append, List.getElem?_append_right hle, hids, List.getElem?_append_left (by omega), hx]

theorem reserveTypes_exists (debug : Bool) : ∀ {elems : List ℕ} (next : ℕ) {seen : List (ℕ × ℕ)},
    elems.Nodup →
    (∀ x ∈ elems, seen.lookup x = none) →
    ∃ seen', ModuleTypesBuilder.reserveTypes debug next seen elems = .ok seen'
  | [], _, seen, _, _ => ⟨seen, rfl⟩
  | id :: elems, next, seen, hnd, hfresh => by
    obtain ⟨hid, hnd⟩ := List.nodup_cons.1 hnd
    have hrest : ∀ x ∈ elems, ((id, next) :: seen).lookup x = none := by
      intro x hx
      have hne : (x == id) = false := by
        rw [beq_eq_false_iff_ne]
        rintro rfl
        exact hid hx
      rw [List.lookup_cons, hne]
      exact hfresh x (List.mem_cons_of_mem _ hx)
    obtain ⟨seen', h⟩ := reserveTypes_exists debug (next + 1) hnd hrest
    refine ⟨seen', ?_⟩
    unfold ModuleTypesBuilder.reserveTypes
    rw [hfresh id List.mem_cons_self, Option.isNone_none, debugAssert_true]
    exact h

/-- What is needed for a group to be interned next. -/
structure Next (v : ValidatorTypes) (b : ModuleTypesBuilder) (gs : List ℕ) (g : ℕ) : Prop where
  ok : BuilderOk v b gs
  validatorId : b.validatorId = v.id
  nodup : (v.recGroupElements g).Nodup
  fresh : ∀ x ∈ v.recGroupElements g, x ∉ internedIds v gs
  refs : ∀ x ∈ v.recGroupElements g, ∀ r ∈ (v.subType x).indices,
    ∃ y ∈ internedIds v (gs ++ [g]), r = .id y
  noCont : ∀ x ∈ v.recGroupElements g, ¬ (v.subType x).compositeType.inner.IsCont

/-- The group is started, and its types can be defined. -/
theorem Next.startRecGroup (h : Next v b gs g) (debug : Bool) :
    ∃ b₁, b.startRecGroup debug v (v.recGroupElements g) = .ok b₁
      ∧ b₁.types = b.types ∧ b₁.recGroupInProgress = some ⟨b.types.recGroups.length,
        b.types.wasmTypes.length, b.types.wasmTypes.length + (v.recGroupElements g).length⟩
      ∧ Defining v (internedIds v (gs ++ [g])) b₁ (v.recGroupElements g) := by
  have hfresh : ∀ x ∈ v.recGroupElements g, b.seenTypes.lookup x = none := by
    intro x hx
    rcases hl : b.seenTypes.lookup x with _ | k
    · rfl
    · exact absurd (List.mem_of_getElem? ((h.ok.seenTypes x k).1 hl)) (h.fresh x hx)
  have hids : internedIds v (gs ++ [g]) = internedIds v gs ++ v.recGroupElements g := by
    rw [internedIds_append, internedIds_singleton]
  obtain ⟨seen, hseen⟩ := reserveTypes_exists debug b.types.wasmTypes.length h.nodup hfresh
  refine ⟨{ b with seenTypes := seen, recGroupInProgress := some ⟨b.types.recGroups.length,
    b.types.wasmTypes.length, b.types.wasmTypes.length + (v.recGroupElements g).length⟩ }, ?_, rfl, rfl,
    ⟨rfl, fun y k => ?_, fun j ty hj => ?_, fun i x hx => ?_, fun x hx => ⟨h.noCont x hx, ?_⟩⟩⟩
  · unfold ModuleTypesBuilder.startRecGroup
    rw [h.ok.inProgress, h.validatorId, decide_eq_true rfl, Option.isNone_none, assertThat_true]
    show (ModuleTypesBuilder.reserveTypes debug _ _ _ >>= fun _ => _) = _
    rw [hseen]
    rfl
  · show seen.lookup y = some k ↔ _
    rw [hids, getElem?_append_iff h.nodup h.fresh, reserveTypes_ok hseen h.nodup, ← h.ok.length]
    split_ifs
    · rw [Option.some_inj, eq_comm]
    · exact h.ok.seenTypes y k
  · obtain ⟨y, hy, hkind⟩ := h.ok.kinds j ty hj
    refine ⟨y, ?_, hkind⟩
    rw [hids, List.getElem?_append_left (List.getElem?_eq_some_iff.1 hy).1, hy]
  · rw [hids, h.ok.length, List.getElem?_append_right (Nat.le_add_right _ _), Nat.add_sub_cancel_left,
      hx]
  · intro r hr
    obtain ⟨y, hy, rfl⟩ := h.refs x hx r hr
    obtain ⟨k, hk⟩ := List.mem_iff_getElem?.1 hy
    exact ⟨y, k, rfl, hk⟩

/-- The members of the group refer in their fields, parameters and results to members before them only,
as far as they refer to the group. -/
def BackwardOnly (v : ValidatorTypes) (g : ℕ) : Prop :=
  ∀ (i : ℕ) x, (v.recGroupElements g)[i]? = some x → ∀ y,
    .id y ∈ (v.subType x).compositeType.indices → y ∈ v.recGroupElements g →
    (v.recGroupElements g).idxOf y < i

theorem Next.below_iff (h : Next v b gs g) :
    (∀ i x, (v.recGroupElements g)[i]? = some x →
      Below v (internedIds v (gs ++ [g])) (b.types.wasmTypes.length + i) x) ↔ BackwardOnly v g := by
  have hids : internedIds v (gs ++ [g]) = internedIds v gs ++ v.recGroupElements g := by
    rw [internedIds_append, internedIds_singleton]
  refine forall_congr' fun i => forall_congr' fun x => forall_congr' fun hx => ?_
  unfold Below
  rw [h.ok.length]
  constructor
  · intro hbelow y hy hmem
    have := hbelow y ((internedIds v gs).length + (v.recGroupElements g).idxOf y) hy
    rw [hids, getElem?_append_iff h.nodup h.fresh, if_pos hmem] at this
    have := this rfl
    omega
  · intro hback y k hy hk
    rw [hids, getElem?_append_iff h.nodup h.fresh] at hk
    split_ifs at hk with hmem
    · have := hback y hy hmem
      omega
    · have := (List.getElem?_eq_some_iff.1 hk).1
      omega

/-- The group is defined: its types follow those that were interned, at the indices that were reserved for
them, and each is the member's type with its references replaced. -/
def ConvertsGroup (debug : Bool) (v : ValidatorTypes) (b : ModuleTypesBuilder) (moduleTypes : List ℕ)
    (g : ℕ) : Prop :=
  ∃ b' k tys, b.defineNewRecGroup debug moduleTypes v g = .ok (b', k)
    ∧ b'.types.wasmTypes = b.types.wasmTypes ++ tys
    ∧ (∀ i x, (v.recGroupElements g)[i]? = some x →
      b'.seenTypes.lookup x = some (b.types.wasmTypes.length + i))
    ∧ List.Forall₂ (fun x ty =>
      (v.subType x).Becomes (Names v b'.seenTypes) (NamesSuper b'.seenTypes) ty)
      (v.recGroupElements g) tys

/-- The assertion on the range of the group is that it is not empty. -/
theorem endRecGroup_eq {b : ModuleTypesBuilder} {W tys : List WasmSubType} {recGroupIndex n : ℕ}
    (hgroup : b.recGroupInProgress = some ⟨recGroupIndex, W.length, W.length + n⟩)
    (hindex : b.types.recGroups.length = recGroupIndex) (htypes : b.types.wasmTypes = W ++ tys)
    (hlen : tys.length = n) (g : ℕ) :
    (∃ r, b.endRecGroup debug g = .ok r) ↔ (debug = true → 0 < n) := by
  have hstart : W.length < (W ++ tys).length ↔ 0 < n := by
    rw [List.length_append, hlen]
    omega
  have hstop : W.length + n = (W ++ tys).length := by rw [List.length_append, hlen]
  unfold ModuleTypesBuilder.endRecGroup
  rw [hgroup, htypes, unwrap_some]
  constructor
  · rintro ⟨r, h⟩ hdebug
    obtain ⟨_, h, -⟩ := bind_eq_ok.1 (show (debugAssert debug _ _ >>= fun _ => _) = .ok r from h)
    exact hstart.1 (of_decide_eq_true (debugAssert_eq_ok.1 h hdebug))
  · intro hpos
    have hassert : ∀ msg, debugAssert debug (decide (W.length < (W ++ tys).length)) msg = .ok () :=
      fun msg => debugAssert_eq_ok.2 fun hdebug => decide_eq_true (hstart.2 (hpos hdebug))
    simp only [bind, Except.bind, hassert, hstop, hindex, decide_true, debugAssert_true, pure,
      Except.pure]
    exact ⟨_, rfl⟩

theorem endRecGroup_types {b b' : ModuleTypesBuilder} {k : ℕ} (h : b.endRecGroup debug g = .ok (b', k)) :
    b'.types.wasmTypes = b.types.wasmTypes ∧ b'.seenTypes = b.seenTypes := by
  obtain ⟨_, -, h⟩ := bind_eq_ok.1 h
  obtain ⟨-, -, h⟩ := bind_eq_ok.1 h
  obtain ⟨-, -, h⟩ := bind_eq_ok.1 h
  obtain ⟨-, -, h⟩ := bind_eq_ok.1 h
  obtain ⟨rfl, -⟩ := Prod.mk.inj (Except.ok.inj h)
  exact ⟨rfl, rfl⟩

/-- A group is interned exactly where it is not empty, as far as this is asserted, and refers to itself
only backward. -/
theorem Next.converts_iff (h : Next v b gs g) :
    ConvertsGroup debug v b moduleTypes g
      ↔ (debug = true → v.recGroupElements g ≠ []) ∧ BackwardOnly v g := by
  obtain ⟨b₁, hb₁, htypes, hgroup, hdef⟩ := h.startRecGroup debug
  have hexists := defineTypes_exists debug moduleTypes hdef
  rw [htypes, h.below_iff] at hexists
  have hend : ∀ {b₂}, ModuleTypesBuilder.defineTypes debug moduleTypes v b₁ (v.recGroupElements g)
      = .ok b₂ → ((∃ r, b₂.endRecGroup debug g = .ok r) ↔ (debug = true → v.recGroupElements g ≠ [])) := by
    intro b₂ h₂
    obtain ⟨tys, rfl, htys⟩ := defineTypes_becomes hdef h₂
    rw [← List.length_pos_iff]
    refine endRecGroup_eq (by exact hgroup) ?_ ?_ htys.length_eq.symm g
    · rw [htypes]
    · rw [htypes]
  unfold ConvertsGroup ModuleTypesBuilder.defineNewRecGroup
  rw [hb₁, ← hexists]
  constructor
  · rintro ⟨b', k, tys, hb, -⟩
    obtain ⟨_, h₁, hb⟩ := bind_eq_ok.1 hb
    obtain rfl := Except.ok.inj h₁
    obtain ⟨b₂, h₂, hb⟩ := bind_eq_ok.1 hb
    exact ⟨(hend h₂).1 ⟨_, hb⟩, b₂, h₂⟩
  · rintro ⟨hpos, b₂, h₂⟩
    obtain ⟨⟨b', k⟩, hb⟩ := (hend h₂).2 hpos
    obtain ⟨hW, hseen⟩ := endRecGroup_types hb
    obtain ⟨tys, rfl, htys⟩ := defineTypes_becomes hdef h₂
    refine ⟨b', k, tys, ?_, ?_, fun i x hx => ?_, ?_⟩
    · exact bind_eq_ok.2 ⟨b₁, rfl, bind_eq_ok.2 ⟨_, h₂, hb⟩⟩
    · rw [hW, htypes]
    · rw [hseen, ← htypes]
      exact (hdef.seen x _).2 (hdef.place i x hx)
    · rwa [hseen]

/-! ## Groups of a type section -/

/-- The groups were interned one after the other. -/
inductive Interned (debug : Bool) (v : ValidatorTypes) : List ℕ → ModuleTypesBuilder → Prop where
  | new : Interned debug v [] (.new v)
  | intern {done : List ℕ} {b b' : ModuleTypesBuilder} {moduleTypes : List ℕ} {g k : ℕ}
    (h : Interned debug v done b) (hg : b.internRecGroup debug moduleTypes v g = .ok (b', k)) :
    Interned debug v (done ++ [g]) b'

theorem internRecGroup_validatorId {b' : ModuleTypesBuilder} {k : ℕ}
    (h : b.internRecGroup debug moduleTypes v g = .ok (b', k)) : b'.validatorId = b.validatorId := by
  obtain ⟨-, -, h⟩ := bind_eq_ok.1 h
  rcases hl : b.seenRecGroups.lookup g with _ | k' <;> rw [hl] at h
  · obtain ⟨b₁, h₁, h⟩ := bind_eq_ok.1 h
    obtain ⟨b₂, h₂, h⟩ := bind_eq_ok.1 h
    obtain ⟨-, -, h₁⟩ := bind_eq_ok.1 h₁
    obtain ⟨-, -, h₁⟩ := bind_eq_ok.1 h₁
    obtain ⟨seen, -, h₁⟩ := bind_eq_ok.1 h₁
    obtain rfl := Except.ok.inj h₁
    obtain ⟨tys, rfl, -⟩ := defineTypes_ok h₂
    obtain ⟨_, -, h⟩ := bind_eq_ok.1 h
    obtain ⟨-, -, h⟩ := bind_eq_ok.1 h
    obtain ⟨-, -, h⟩ := bind_eq_ok.1 h
    obtain ⟨-, -, h⟩ := bind_eq_ok.1 h
    obtain ⟨rfl, rfl⟩ := Prod.mk.inj (Except.ok.inj h)
    rfl
  · obtain ⟨rfl, rfl⟩ := Prod.mk.inj (Except.ok.inj h)
    rfl

theorem Interned.ok {done : List ℕ} (h : Interned debug v done b) (hv : v.Valid all)
    (hall : ∀ g ∈ done, g ∈ all) : BuilderOk v b (firsts done) ∧ b.validatorId = v.id := by
  induction h with
  | new => exact ⟨builderOk_new v, rfl⟩
  | @intern done b b' moduleTypes g k h hg ih =>
    have hdone : ∀ g ∈ done, g ∈ all := fun g hg => hall g (List.mem_append_left _ hg)
    obtain ⟨hok, hid⟩ := ih hdone
    have hgs : ∀ g ∈ firsts done, g ∈ all := fun g hg => hdone g (mem_firsts.1 hg)
    obtain ⟨hok', -⟩ := internRecGroup_ok hv.idOf hv.nodup hgs (hall g (by simp)) hok
      (nodup_firsts done) hg
    rw [← firsts_append_singleton] at hok'
    exact ⟨hok', (internRecGroup_validatorId hg).trans hid⟩

/-- A declared group that is not interned yet can be interned next. -/
theorem BuilderOk.next {done rest : List ℕ} (hok : BuilderOk v b (firsts done))
    (hid : b.validatorId = v.id) (hv : v.Valid all) (hall : all = done ++ g :: rest) (hg : g ∉ done)
    (hcont : ∀ x ∈ v.recGroupElements g, ¬ (v.subType x).compositeType.inner.IsCont) :
    Next v b (firsts done) g := by
  have hmem : g ∈ all := by simp [hall]
  have hgs : ∀ h ∈ firsts done, h ∈ all := fun h hh => by simp [hall, mem_firsts.1 hh]
  refine ⟨hok, hid, hv.nodup g hmem, fun x hx hm => ?_, fun x hx r hr => ?_, hcont⟩
  · exact hg (mem_firsts.1 ((mem_internedIds_iff hv.idOf hgs hmem hx).1 hm))
  · obtain ⟨y, hy, rfl⟩ := hv.refs done g rest hall x hx r hr
    refine ⟨y, ?_, rfl⟩
    obtain ⟨h, hh, hyh⟩ := List.mem_flatMap.1 hy
    refine List.mem_flatMap.2 ⟨h, ?_, hyh⟩
    rw [List.mem_append] at hh ⊢
    exact hh.imp_left mem_firsts.2

end NewGroup

/-! ## Converted groups -/

/-- A declared group of functions, arrays and structs that comes after the groups `done` is converted
exactly where it is not empty, as far as this is asserted, and its members refer in their fields,
parameters and results neither to themselves nor to later members. -/
theorem defineNewRecGroup_converts_iff {debug : Bool} {v : ValidatorTypes} {all done rest : List ℕ}
    {g : ℕ} {b : ModuleTypesBuilder} (hv : v.Valid all) (hall : all = done ++ g :: rest)
    (hb : Interned debug v done b) (hg : g ∉ done)
    (hcont : ∀ x ∈ v.recGroupElements g, ¬ (v.subType x).compositeType.inner.IsCont)
    (moduleTypes : List ℕ) :
    ConvertsGroup debug v b moduleTypes g
      ↔ (debug = true → v.recGroupElements g ≠ []) ∧ BackwardOnly v g := by
  have hdone : ∀ h ∈ done, h ∈ all := fun h hh => by simp [hall, hh]
  obtain ⟨hok, hid⟩ := hb.ok hv hdone
  exact (hok.next hid hv hall hg hcont).converts_iff

section Example

/-- A struct type with a field that refers to the type `y`. -/
def structTo (y : ℕ) : SubType :=
  ⟨true, none, ⟨.struct [⟨false, .val (.ref ⟨true, .concrete (.id y)⟩)⟩], false⟩⟩

/-- A group of one struct type that refers to itself. -/
def selfRefGroup : ValidatorTypes := ⟨0, [0], fun _ => 0, fun _ => [0], fun _ => structTo 0⟩

/-- A group of a function type, and of a struct type that refers to it. -/
def structToFunc : ValidatorTypes :=
  ⟨0, [0, 1], fun _ => 0, fun _ => [0, 1], fun x =>
    if x = 0 then ⟨true, none, ⟨.func ⟨[], []⟩, false⟩⟩ else structTo 0⟩

theorem eq_of_singleton_eq {pre post : List ℕ} {g h : ℕ} (hg : [h] = pre ++ g :: post) :
    pre = [] ∧ g = h := by
  rcases pre with _ | ⟨a, pre⟩
  · exact ⟨rfl, (List.cons.inj hg).1.symm⟩
  · simp at hg

/-- The kind of the struct is not known where its field is converted. -/
theorem not_convertsGroup_selfRefGroup :
    selfRefGroup.Valid [0] ∧ ¬ ConvertsGroup false selfRefGroup (.new selfRefGroup) [] 0 := by
  refine ⟨⟨fun pre g post h x hx r hr => ?_, rfl, fun g hg x hx => ?_, fun g hg => ?_⟩, ?_⟩
  · obtain ⟨rfl, rfl⟩ := eq_of_singleton_eq h
    obtain rfl := List.mem_singleton.1 hr
    exact ⟨0, by decide, rfl⟩
  · exact (List.mem_singleton.1 hg).symm
  · exact List.nodup_singleton 0
  · rintro ⟨b', k, tys, h, -⟩
    have hpanic : ModuleTypesBuilder.defineNewRecGroup false (.new selfRefGroup) [] selfRefGroup 0
        = panicking "not yet implemented" := by decide
    rw [hpanic] at h
    cases h

theorem valid_structToFunc : structToFunc.Valid [0] := by
  refine ⟨fun pre g post h x hx r hr => ?_, rfl, fun g hg x hx => ?_, fun g hg => ?_⟩
  · obtain ⟨rfl, rfl⟩ := eq_of_singleton_eq h
    refine ⟨0, by decide, ?_⟩
    rcases List.mem_pair.1 hx with rfl | rfl
    · cases hr
    · exact List.mem_singleton.1 hr
  · exact (List.mem_singleton.1 hg).symm
  · show [0, 1].Nodup
    decide

theorem noCont_structToFunc : ∀ x ∈ structToFunc.recGroupElements 0,
    ¬ (structToFunc.subType x).compositeType.inner.IsCont := by
  intro x hx
  rcases List.mem_pair.1 hx with rfl | rfl <;> exact not_false

theorem backwardOnly_structToFunc : BackwardOnly structToFunc 0 := by
  intro i x hx y hy hmem
  rcases i with _ | _ | i
  · obtain rfl := Option.some.inj hx
    cases hy
  · obtain rfl := Option.some.inj hx
    obtain rfl : y = 0 := by simpa [structToFunc, structTo, CompositeType.indices,
      CompositeInnerType.indices, FieldType.indices, StorageType.indices, ValType.indices,
      RefType.indices, HeapType.indices] using hy
    decide
  · cases hx

/-- The struct is converted after the function it refers to. -/
theorem defineNewRecGroup_converts_iff_func :
    ConvertsGroup true structToFunc (.new structToFunc) [] 0 := by
  have hall : [0] = [] ++ 0 :: [] := rfl
  refine (defineNewRecGroup_converts_iff valid_structToFunc hall .new List.not_mem_nil
    noCont_structToFunc []).2 ⟨fun _ h => ?_, backwardOnly_structToFunc⟩
  cases h

end Example

end K23VM
