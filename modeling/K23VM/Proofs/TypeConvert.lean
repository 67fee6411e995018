import K23VM.Translate.TypeConvert
import K23VM.Proofs.TypeTrace

/-!
# What the conversion keeps

A converted type has the references of the type it was converted from, each replaced by its interned
index, and is otherwise that type: `toParser` reads it back, `convertSubType_converted`.
-/

namespace K23VM

open Wasmparser

/-! ## Reading a type back -/

def CanonicalizedTypeIndex.toParser : CanonicalizedTypeIndex → UnpackedIndex
  | .shared i => .id i
  | .module i => .module i
  | .recGroup i => .recGroup i

def WasmHeapType.toParser (t : WasmHeapType) : HeapType :=
  match t.ty with
  | .concreteFunc i | .concreteArray i | .concreteStruct i => .concrete i.toParser
  | .extern_ => .abstract t.shared .extern_
  | .noExtern => .abstract t.shared .noExtern
  | .func => .abstract t.shared .func
  | .noFunc => .abstract t.shared .noFunc
  | .any => .abstract t.shared .any
  | .eq => .abstract t.shared .eq
  | .i31 => .abstract t.shared .i31
  | .array => .abstract t.shared .array
  | .struct => .abstract t.shared .struct
  | .none => .abstract t.shared .none
  | .exn => .abstract t.shared .exn
  | .noExn => .abstract t.shared .noExn
  | .cont => .abstract t.shared .cont
  | .noCont => .abstract t.shared .noCont

def WasmRefType.toParser (t : WasmRefType) : RefType := ⟨t.nullable, t.heapType.toParser⟩

def WasmValType.toParser : WasmValType → ValType
  | .i32 => .i32
  | .i64 => .i64
  | .f32 => .f32
  | .f64 => .f64
  | .v128 => .v128
  | .ref ty => .ref ty.toParser

def WasmStorageType.toParser : WasmStorageType → StorageType
  | .i8 => .i8
  | .i16 => .i16
  | .val ty => .val ty.toParser

def WasmFieldType.toParser (t : WasmFieldType) : FieldType := ⟨t.mutable, t.elementType.toParser⟩

def WasmFuncType.toParser (t : WasmFuncType) : FuncType :=
  ⟨t.params.map (·.toParser), t.results.map (·.toParser)⟩

def WasmCompositeType.toParser (t : WasmCompositeType) : CompositeType :=
  match t.inner with
  | .func ty => ⟨.func ty.toParser, t.shared⟩
  | .array ty => ⟨.array ty.field.toParser, t.shared⟩
  | .struct ty => ⟨.struct (ty.fields.map (·.toParser)), t.shared⟩

def WasmSubType.toParser (t : WasmSubType) : SubType :=
  ⟨t.isFinal, t.supertype.map (·.toParser), t.compositeType.toParser⟩

namespace WasmparserTypeConverter

section Converted

variable (c : WasmparserTypeConverter)
  (f : CanonicalizedTypeIndex → Except Fault CanonicalizedTypeIndex)
  (G : UnpackedIndex → UnpackedIndex) {α β α' β' : Type} [TypeTrace α] [TypeTrace α']

/-- `a` has the interned indices of the references `is`, and when `f` replaces these as `G` does the
references themselves, it is read back as `b`. -/
structure Converted (toP : α → β) (is : List UnpackedIndex) (b : β) (a : α) : Prop where
  trace_eq : ∃ ks, is.mapM c.lookupTypeIndex = .ok ks ∧ trace a = ks.map .module
  toParser_eq : (∀ r ∈ is, ∀ i j, c.lookupTypeIndex r = .ok i → f (.module i) = .ok j →
    j.toParser = G r) → ∀ k, traceMut f a = .ok k → toP k = b

variable {c f G}

theorem converted_list {conv : β' → Except Fault α} {toP : α → β} {ind : β' → List UnpackedIndex}
    {mp : β' → β} (h : ∀ t a, conv t = .ok a → Converted c f G toP (ind t) (mp t) a) :
    ∀ {l : List β'} {as : List α}, l.mapM conv = .ok as →
    Converted c f G (List.map toP) (l.flatMap ind) (l.map mp) as
  | [], as, hm => by
    obtain rfl := Except.ok.inj hm
    exact ⟨⟨[], rfl, rfl⟩, fun _ k hk => by obtain rfl := Except.ok.inj hk; rfl⟩
  | t :: l, as, hm => by
    rw [List.mapM_cons] at hm
    obtain ⟨a, ha, hm⟩ := bind_eq_ok.1 hm
    obtain ⟨as', has, hm⟩ := bind_eq_ok.1 hm
    obtain rfl := Except.ok.inj hm
    have h₁ := h t a ha
    have h₂ := converted_list h has
    obtain ⟨ks, hks, htr⟩ := h₁.trace_eq
    obtain ⟨ks', hks', htr'⟩ := h₂.trace_eq
    refine ⟨⟨ks ++ ks', ?_, ?_⟩, fun hG k hk => ?_⟩
    · rw [List.flatMap_cons]
      exact mapM_append_eq_ok.2 ⟨ks, ks', hks, hks', rfl⟩
    · rw [trace_cons, htr, htr', List.map_append]
    · obtain ⟨y, ys, hy, hys, rfl⟩ := traceMut_cons_eq_ok.1 hk
      rw [List.flatMap_cons] at hG
      rw [List.map_cons, List.map_cons,
        h₁.toParser_eq (fun r hr => hG r (List.mem_append_left _ hr)) y hy,
        h₂.toParser_eq (fun r hr => hG r (List.mem_append_right _ hr)) ys hys]

theorem concreteHeapType_ok {i : ℕ} {a : WasmHeapType} (h : c.concreteHeapType i = .ok a) :
    ∃ sh, a = ⟨sh, .concreteFunc (.module i)⟩ ∨ a = ⟨sh, .concreteArray (.module i)⟩
      ∨ a = ⟨sh, .concreteStruct (.module i)⟩ := by
  unfold concreteHeapType at h
  split at h
  · split at h
    · exact ⟨_, .inl (Except.ok.inj h).symm⟩
    · exact ⟨_, .inr (.inl (Except.ok.inj h).symm)⟩
    · exact ⟨_, .inr (.inr (Except.ok.inj h).symm)⟩
  · cases h

theorem convertHeapType_converted (t : HeapType) (a : WasmHeapType)
    (h : c.convertHeapType t = .ok a) :
    Converted c f G WasmHeapType.toParser t.indices (t.mapIndex G) a := by
  cases t with
  | concrete index =>
    obtain ⟨i, hi, h⟩ := bind_eq_ok.1 h
    have hks : [index].mapM c.lookupTypeIndex = .ok [i] := mapM_eq_ok_iff.2 (.cons hi .nil)
    obtain ⟨sh, rfl | rfl | rfl⟩ := concreteHeapType_ok h
    all_goals
      refine ⟨⟨[i], hks, rfl⟩, fun hG k hk => ?_⟩
      obtain ⟨j, hj, hk⟩ := bind_eq_ok.1 hk
      obtain rfl := Except.ok.inj hk
      exact congrArg _ (hG index List.mem_cons_self i j hi hj)
  | abstract shared ty =>
    obtain rfl := Except.ok.inj h
    cases ty
    all_goals
      refine ⟨⟨[], rfl, rfl⟩, fun _ k hk => ?_⟩
      obtain rfl := Except.ok.inj hk
      rfl

/-- A type with one part that refers to others. -/
theorem Converted.wrap {toP : α → β} {toP' : α' → β'} {is : List UnpackedIndex} {b : β} {a : α}
    (h : Converted c f G toP is b a) (mk : α → α') (mkP : β → β') (htr : trace (mk a) = trace a)
    (hmut : traceMut f (mk a) = traceMut f a >>= fun k => pure (mk k))
    (hP : ∀ k, toP' (mk k) = mkP (toP k)) : Converted c f G toP' is (mkP b) (mk a) := by
  refine ⟨by rw [htr]; exact h.trace_eq, fun hG k hk => ?_⟩
  obtain ⟨k', hk', hk⟩ := bind_eq_ok.1 (hmut.symm.trans hk)
  obtain rfl := Except.ok.inj hk
  rw [hP, h.toParser_eq hG k' hk']

/-- A type without references. -/
theorem converted_leaf {toP : α → β} {b : β} {a : α} (htr : trace a = [])
    (hmut : traceMut f a = .ok a) (hP : toP a = b) : Converted c f G toP [] b a := by
  refine ⟨⟨[], rfl, htr⟩, fun _ k hk => ?_⟩
  obtain rfl := Except.ok.inj (hmut.symm.trans hk)
  exact hP

theorem convertRefType_converted (t : RefType) (a : WasmRefType) (h : c.convertRefType t = .ok a) :
    Converted c f G WasmRefType.toParser t.indices (t.mapIndex G) a := by
  obtain ⟨ht, hh, h⟩ := bind_eq_ok.1 h
  obtain rfl := Except.ok.inj h
  exact (convertHeapType_converted _ _ hh).wrap (WasmRefType.mk t.nullable) (RefType.mk t.nullable)
    rfl rfl fun _ => rfl

theorem convertValType_converted (t : ValType) (a : WasmValType) (h : c.convertValType t = .ok a) :
    Converted c f G WasmValType.toParser t.indices (t.mapIndex G) a := by
  cases t with
  | ref ty =>
    obtain ⟨ty', hty, h⟩ := bind_eq_ok.1 h
    obtain rfl := Except.ok.inj h
    exact (convertRefType_converted _ _ hty).wrap WasmValType.ref ValType.ref rfl rfl fun _ => rfl
  | _ =>
    obtain rfl := Except.ok.inj h
    exact converted_leaf rfl rfl rfl

theorem convertStorageType_converted (t : StorageType) (a : WasmStorageType)
    (h : c.convertStorageType t = .ok a) :
    Converted c f G WasmStorageType.toParser t.indices (t.mapIndex G) a := by
  cases t with
  | val ty =>
    obtain ⟨ty', hty, h⟩ := bind_eq_ok.1 h
    obtain rfl := Except.ok.inj h
    exact (convertValType_converted _ _ hty).wrap WasmStorageType.val StorageType.val rfl rfl
      fun _ => rfl
  | _ =>
    obtain rfl := Except.ok.inj h
    exact converted_leaf rfl rfl rfl

theorem convertFieldType_converted (t : FieldType) (a : WasmFieldType)
    (h : c.convertFieldType t = .ok a) :
    Converted c f G WasmFieldType.toParser t.indices (t.mapIndex G) a := by
  obtain ⟨ty', hty, h⟩ := bind_eq_ok.1 h
  obtain rfl := Except.ok.inj h
  exact (convertStorageType_converted _ _ hty).wrap (WasmFieldType.mk t.mutable)
    (FieldType.mk t.mutable) rfl rfl fun _ => rfl

/-- Two parts after each other. -/
theorem converted_pair {γ γ' : Type} [TypeTrace γ] {toP : α → β} {toP' : α' → β'}
    {is is' : List UnpackedIndex} {b : β} {b' : β'} {a : α} {a' : α'} {toQ : γ → γ'}
    (h : Converted c f G toP is b a) (h' : Converted c f G toP' is' b' a') (mk : α → α' → γ)
    (mkP : β → β' → γ') (htr : trace (mk a a') = trace a ++ trace a')
    (hmut : traceMut f (mk a a') = traceMut f a >>= fun k => traceMut f a' >>= fun k' =>
      pure (mk k k')) (hP : ∀ k k', toQ (mk k k') = mkP (toP k) (toP' k')) :
    Converted c f G toQ (is ++ is') (mkP b b') (mk a a') := by
  obtain ⟨ks, hks, htr₁⟩ := h.trace_eq
  obtain ⟨ks', hks', htr₂⟩ := h'.trace_eq
  refine ⟨⟨ks ++ ks', mapM_append_eq_ok.2 ⟨ks, ks', hks, hks', rfl⟩, ?_⟩, fun hG k hk => ?_⟩
  · rw [htr, htr₁, htr₂, List.map_append]
  · obtain ⟨y, hy, hk⟩ := bind_eq_ok.1 (hmut.symm.trans hk)
    obtain ⟨y', hy', hk⟩ := bind_eq_ok.1 hk
    obtain rfl := Except.ok.inj hk
    rw [hP, h.toParser_eq (fun r hr => hG r (List.mem_append_left _ hr)) y hy,
      h'.toParser_eq (fun r hr => hG r (List.mem_append_right _ hr)) y' hy']

theorem convertFuncType_converted (t : FuncType) (a : WasmFuncType)
    (h : c.convertFuncType t = .ok a) :
    Converted c f G WasmFuncType.toParser t.indices (t.mapIndex G) a := by
  obtain ⟨params, hp, h⟩ := bind_eq_ok.1 h
  obtain ⟨results, hr, h⟩ := bind_eq_ok.1 h
  obtain rfl := Except.ok.inj h
  exact converted_pair (converted_list convertValType_converted hp)
    (converted_list convertValType_converted hr) WasmFuncType.mk FuncType.mk rfl rfl fun _ _ => rfl

theorem convertCompositeType_converted (t : CompositeType) (a : WasmCompositeType)
    (h : c.convertCompositeType t = .ok a) :
    Converted c f G WasmCompositeType.toParser t.indices (t.mapIndex G) a := by
  obtain ⟨inner, shared⟩ := t
  cases inner with
  | func ty =>
    obtain ⟨ty', hty, h⟩ := bind_eq_ok.1 h
    obtain rfl := Except.ok.inj h
    exact (convertFuncType_converted _ _ hty).wrap
      (fun k => WasmCompositeType.mk (.func k) shared) (fun k => CompositeType.mk (.func k) shared)
      rfl rfl fun _ => rfl
  | array ty =>
    obtain ⟨arr, harr, h⟩ := bind_eq_ok.1 h
    obtain ⟨ty', hty, harr⟩ := bind_eq_ok.1 harr
    obtain rfl := Except.ok.inj harr
    obtain rfl := Except.ok.inj h
    exact (convertFieldType_converted _ _ hty).wrap
      (fun k => WasmCompositeType.mk (.array ⟨k⟩) shared)
      (fun k => CompositeType.mk (.array k) shared) rfl (bind_assoc _ _ _) fun _ => rfl
  | struct fields =>
    obtain ⟨str, hstr, h⟩ := bind_eq_ok.1 h
    obtain ⟨fs, hfs, hstr⟩ := bind_eq_ok.1 hstr
    obtain rfl := Except.ok.inj hstr
    obtain rfl := Except.ok.inj h
    exact (converted_list convertFieldType_converted hfs).wrap
      (fun k => WasmCompositeType.mk (.struct ⟨k⟩) shared)
      (fun k => CompositeType.mk (.struct k) shared) rfl (bind_assoc _ _ _) fun _ => rfl
  | cont index => cases h

theorem supertype_converted (o : Option UnpackedIndex) (a : Option CanonicalizedTypeIndex)
    (h : o.mapM (fun index => do
      pure (CanonicalizedTypeIndex.module (← c.lookupTypeIndex index))) = .ok a) :
    Converted c f G (Option.map (·.toParser)) o.toList (o.map G) a := by
  cases o with
  | none =>
    obtain rfl := Except.ok.inj h
    exact converted_leaf rfl rfl rfl
  | some r =>
    obtain ⟨x, hx, h⟩ := bind_eq_ok.1 h
    obtain ⟨i, hi, hx⟩ := bind_eq_ok.1 hx
    obtain rfl := Except.ok.inj hx
    obtain rfl := Except.ok.inj h
    refine ⟨⟨[i], mapM_eq_ok_iff.2 (.cons hi .nil), rfl⟩, fun hG k hk => ?_⟩
    obtain ⟨j, hj, hk⟩ := bind_eq_ok.1 hk
    obtain rfl := Except.ok.inj hk
    exact congrArg some (hG r List.mem_cons_self i j hi hj)

/-- What is converted keeps its references and is otherwise unchanged. -/
theorem convertSubType_converted {t : SubType} {a : WasmSubType} (h : c.convertSubType t = .ok a) :
    Converted c f G WasmSubType.toParser t.indices (t.mapIndex G) a := by
  obtain ⟨sup, hsup, h⟩ := bind_eq_ok.1 h
  obtain ⟨ct, hct, h⟩ := bind_eq_ok.1 h
  obtain rfl := Except.ok.inj h
  exact converted_pair (supertype_converted _ _ hsup) (convertCompositeType_converted _ _ hct)
    (WasmSubType.mk t.isFinal) (SubType.mk t.isFinal) rfl rfl fun _ _ => rfl

end Converted

end WasmparserTypeConverter

end K23VM
