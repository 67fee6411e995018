import K23VM.Lib.MapM
import K23VM.Proofs.TranslatedModule

/-!
# The exports of a translated module

The names of a valid binary's exports are distinct, so that inserting them one by one leaves them in the
order in which they are declared, `translate_exports`, each with an entity that the module has.
-/

namespace K23VM

open Wasmparser (Payload Validator ValidModule ValidatorTypes SectionReader declared)

/-! ## The exports of a binary -/

namespace Wasmparser

def Payload.exports : Payload → List Export
  | .exportSection exports => exports.items
  | _ => []

/-- The exports that a binary declares, in order. -/
def declaredExports (ps : List Payload) : List Export := ps.flatMap Payload.exports

def Export.entity (e : Export) : EntityIndex :=
  match e.kind with
  | .func => .function e.index
  | .table => .table e.index
  | .memory => .memory e.index
  | .global => .global e.index
  | .tag => .tag e.index

/-- What the validation of a binary promises of its exports. -/
structure ValidExports (ps : List Payload) : Prop where
  nodup : ((declaredExports ps).map Export.name).Nodup
  tables : ∀ e ∈ declaredExports ps, e.kind = .table → e.index < (declared ps).tables
  memories : ∀ e ∈ declaredExports ps, e.kind = .memory → e.index < (declared ps).memories
  globals : ∀ e ∈ declaredExports ps, e.kind = .global → e.index < (declared ps).globals
  /-- A tag is imported, or declared in a section of its own. -/
  tags : ∀ e ∈ declaredExports ps, e.kind = .tag →
    (∃ i ∈ (declared ps).imports, i.ty = .tag) ∨ .tagSection ∈ ps

end Wasmparser

open Wasmparser (declaredExports ValidExports)

/-- The module has the entity, and a `VMFuncRef` for it if it is a function. -/
def TranslatedModule.HasEntity (m : TranslatedModule) : EntityIndex → Prop
  | .function i => ModuleTranslator.Escaping m i
  | .table i => i < m.tables.length
  | .memory i => i < m.memories.length
  | .global i => i < m.globals.length
  | .tag _ => False

namespace ModuleTranslator

/-! ## Insertions -/

theorem insertExport_of_not_mem {name : String} {index : EntityIndex} :
    ∀ {es : List (String × EntityIndex)}, name ∉ es.map Prod.fst →
    insertExport name index es = es ++ [(name, index)]
  | [], _ => rfl
  | e :: es, h => by
    have hne : e.1 ≠ name := fun heq => h (heq ▸ List.mem_cons_self)
    have hrest : name ∉ es.map Prod.fst := fun hmem => h (List.mem_cons_of_mem _ hmem)
    rw [insertExport, if_neg hne, insertExport_of_not_mem hrest, List.cons_append]

/-- The exports after some more were inserted. -/
def insertExports (es : List (String × EntityIndex)) (new : List Wasmparser.Export) :
    List (String × EntityIndex) :=
  new.foldl (fun es e => insertExport e.name e.entity es) es

theorem insertExports_of_nodup : ∀ {new : List Wasmparser.Export} {es : List (String × EntityIndex)},
    (es.map Prod.fst ++ new.map Wasmparser.Export.name).Nodup →
    insertExports es new = es ++ new.map fun e => (e.name, e.entity)
  | [], es, _ => (List.append_nil es).symm
  | e :: new, es, h => by
    have hnot : e.name ∉ es.map Prod.fst := fun hmem =>
      (List.nodup_append.1 h).2.2 _ hmem _ List.mem_cons_self rfl
    have hnext : ((es ++ [(e.name, e.entity)]).map Prod.fst
        ++ new.map Wasmparser.Export.name).Nodup := by
      simpa using h
    show insertExports (insertExport e.name e.entity es) new = _
    rw [insertExport_of_not_mem hnot, insertExports_of_nodup hnext]
    simp

/-! ## What each section does to the exports -/

theorem forItems_foldl {τ α β : Type} {f : τ → α → Fallible Error τ} (π : τ → β) {g : β → α → β}
    (hf : ∀ s x s', f s x = (.ok (.ok s') : Except Fault (Except Error _)) → π s' = g (π s) x) :
    ∀ {xs : SectionReader α} {s s' : τ},
    forItems f s xs = (.ok (.ok s') : Except Fault (Except Error _)) →
    π s' = xs.items.foldl g (π s)
  | [], s, s', h => by
    obtain rfl := Except.ok.inj (Except.ok.inj h)
    rfl
  | .error e :: _, s, s', h => by cases h
  | .ok x :: xs, s, s', h => by
    unfold forItems at h
    obtain ⟨s₁, h₁, h⟩ := fallible_bind_eq_ok.1 h
    rw [forItems_foldl π hf h, hf s x s₁ h₁]
    rfl

/-- Items that leave something as it is leave it as it is together. -/
theorem forItems_keeps {τ α β : Type} {f : τ → α → Fallible Error τ} (π : τ → β)
    (hf : ∀ s x s', f s x = (.ok (.ok s') : Except Fault (Except Error _)) → π s' = π s)
    {xs : SectionReader α} {s s' : τ}
    (h : forItems f s xs = (.ok (.ok s') : Except Fault (Except Error _))) : π s' = π s := by
  rw [forItems_foldl π (g := fun b _ => b) hf h, List.foldl_fixed]

variable {t t' : ModuleTranslator}

theorem SameButFlags.exports (h : SameButFlags t t') : t'.module.exports = t.module.exports := by
  obtain ⟨fs, n, rfl⟩ := h
  rfl

theorem translateImport_exports {i : Wasmparser.Import}
    (h : t.translateImport i = (.ok (.ok t') : Except Fault (Except Error _))) :
    t'.module.exports = t.module.exports := by
  obtain ⟨_, _, -, rfl⟩ | ⟨_, _, -, rfl⟩ | ⟨_, _, -, rfl⟩ | ⟨_, _, -, rfl⟩ :=
    translateImport_cases h <;> rfl

theorem translateTable_exports {table : Wasmparser.Table}
    (h : t.translateTable table = (.ok (.ok t') : Except Fault (Except Error _))) :
    t'.module.exports = t.module.exports := by
  unfold translateTable at h
  obtain ⟨plan, -, h⟩ := fallible_bind_eq_ok.1 h
  rcases hinit : table.init with _ | expr <;> rw [hinit] at h
  · obtain rfl := Except.ok.inj (Except.ok.inj h)
    rfl
  · obtain ⟨⟨e, escaped⟩, -, h⟩ := fallible_bind_eq_ok.1 h
    obtain ⟨t₁, h₁, h⟩ := fallible_bind_eq_ok.1 h
    obtain rfl := Except.ok.inj (Except.ok.inj h)
    exact (flagEscaped_flags (fallible_lift_eq_ok h₁)).1.exports

theorem translateMemory_exports {ty : WasmparserMemoryType}
    (h : t.translateMemory ty = (.ok (.ok t') : Except Fault (Except Error _))) :
    t'.module.exports = t.module.exports := by
  unfold translateMemory at h
  obtain ⟨memory, -, h⟩ := fallible_bind_eq_ok.1 h
  obtain rfl := Except.ok.inj (Except.ok.inj h)
  rfl

theorem translateGlobal_exports {global : Wasmparser.Global}
    (h : t.translateGlobal global = (.ok (.ok t') : Except Fault (Except Error _))) :
    t'.module.exports = t.module.exports := by
  unfold translateGlobal at h
  obtain ⟨desc, -, h⟩ := fallible_bind_eq_ok.1 h
  obtain ⟨⟨e, escaped⟩, -, h⟩ := fallible_bind_eq_ok.1 h
  obtain ⟨t₁, h₁, h⟩ := fallible_bind_eq_ok.1 h
  obtain rfl := Except.ok.inj (Except.ok.inj h)
  exact (flagEscaped_flags (fallible_lift_eq_ok h₁)).1.exports

theorem translateExport_exports {e : Wasmparser.Export}
    (h : t.translateExport e = (.ok (.ok t') : Except Fault (Except Error _))) :
    t'.module.exports = insertExport e.name e.entity t.module.exports := by
  unfold translateExport at h
  unfold Wasmparser.Export.entity
  obtain ⟨⟨t₁, index⟩, h₁, h⟩ := fallible_bind_eq_ok.1 h
  obtain rfl := Except.ok.inj (Except.ok.inj h)
  replace h₁ := fallible_lift_eq_ok h₁
  unfold exportIndex at h₁
  rcases hk : e.kind with _ | _ | _ | _ | _ <;> rw [hk] at h₁
  · obtain ⟨t₂, h₂, h₁⟩ := bind_eq_ok.1 h₁
    obtain ⟨rfl, rfl⟩ := Prod.mk.inj (Except.ok.inj h₁)
    rw [← (flagFuncAsEscaped_flags h₂).1.exports]
  all_goals
    obtain ⟨rfl, rfl⟩ := Prod.mk.inj (Except.ok.inj h₁)
    rfl

theorem translateElementItems_exports {items : Wasmparser.ElementItems}
    {elements : TableSegmentElements}
    (h : t.translateElementItems items = (.ok (.ok (t', elements)) : Except Fault (Except Error _))) :
    t'.module.exports = t.module.exports := by
  cases items with
  | functions funcs =>
    obtain ⟨out, -, h⟩ := fallible_bind_eq_ok.1 h
    obtain rfl := (Prod.mk.inj (Except.ok.inj (Except.ok.inj h))).1
    rfl
  | expressions exprs =>
    obtain ⟨⟨t₁, out⟩, h₁, h⟩ := fallible_bind_eq_ok.1 h
    obtain rfl := (Prod.mk.inj (Except.ok.inj (Except.ok.inj h))).1
    refine forItems_keeps (fun s => s.1.module.exports) ?_ h₁
    rintro ⟨t, out⟩ expr ⟨t₂, out₂⟩ h
    obtain ⟨⟨e, escaped⟩, -, h⟩ := fallible_bind_eq_ok.1 h
    obtain ⟨t₃, h₃, h⟩ := fallible_bind_eq_ok.1 h
    obtain rfl := (Prod.mk.inj (Except.ok.inj (Except.ok.inj h))).1
    exact (flagEscaped_flags (fallible_lift_eq_ok h₃)).1.exports

theorem translateElement_exports {debug : Bool} {n : ℕ} {element : Wasmparser.Element}
    (h : t.translateElement debug n element = (.ok (.ok t') : Except Fault (Except Error _))) :
    t'.module.exports = t.module.exports := by
  unfold translateElement at h
  obtain ⟨i, -, h⟩ := fallible_bind_eq_ok.1 h
  obtain ⟨⟨t₁, elements⟩, h₁, h⟩ := fallible_bind_eq_ok.1 h
  rw [← translateElementItems_exports h₁]
  rcases hk : element.kind with ⟨tableIndex, offsetExpr⟩ | _ | _ <;> rw [hk] at h
  · obtain ⟨⟨offset, escaped⟩, -, h⟩ := fallible_bind_eq_ok.1 h
    obtain ⟨_, -, h⟩ := fallible_bind_eq_ok.1 h
    obtain rfl := Except.ok.inj (Except.ok.inj h)
    rfl
  all_goals
    obtain rfl := Except.ok.inj (Except.ok.inj h)
    rfl

theorem translateData_exports {debug : Bool} {n : ℕ} {entry : Wasmparser.Data}
    (h : t.translateData debug n entry = (.ok (.ok t') : Except Fault (Except Error _))) :
    t'.module.exports = t.module.exports := by
  unfold translateData at h
  obtain ⟨i, -, h⟩ := fallible_bind_eq_ok.1 h
  rcases hk : entry.kind with ⟨memoryIndex, offsetExpr⟩ | _ <;> rw [hk] at h
  · obtain ⟨⟨offset, escaped⟩, -, h⟩ := fallible_bind_eq_ok.1 h
    obtain ⟨_, -, h⟩ := fallible_bind_eq_ok.1 h
    obtain rfl := Except.ok.inj (Except.ok.inj h)
    rfl
  · obtain rfl := Except.ok.inj (Except.ok.inj h)
    rfl

/-- Items that are only read change nothing. -/
theorem forItems_read {α : Type} {xs : SectionReader α}
    (h : forItems (fun t _ => pure t) t xs = (.ok (.ok t') : Except Fault (Except Error _))) :
    t' = t :=
  forItems_keeps id (fun _ _ _ h => (Except.ok.inj (Except.ok.inj h)).symm) h

theorem translateCustomSection_exports {c : Wasmparser.CustomSection}
    (h : t.translateCustomSection c = (.ok (.ok t') : Except Fault (Except Error _))) :
    t'.module.exports = t.module.exports := by
  rcases c with read | subsections | (e | fields) | _
  · obtain ⟨_, -, h⟩ := fallible_bind_eq_ok.1 h
    obtain rfl := Except.ok.inj (Except.ok.inj h)
    rfl
  · refine forItems_keeps (fun t => t.module.exports) (fun t name t' h => ?_) h
    cases name with
    | module name | unknown =>
      obtain rfl := Except.ok.inj (Except.ok.inj h)
      rfl
    | direct names => rw [forItems_read h]
    | indirect names =>
      refine forItems_keeps (fun t => t.module.exports) (fun t names t' h => ?_) h
      rw [forItems_read h]
  · cases h
  · refine forItems_keeps (fun t => t.module.exports) (fun t field t' h => ?_) h
    unfold translateProducersField at h
    split_ifs at h
    · rw [forItems_read h]
    · cases h
  · obtain rfl := Except.ok.inj (Except.ok.inj h)
    rfl

theorem translateTypes_exports {debug : Bool} {types : Option ValidatorTypes} {count : ℕ}
    (h : t.translateTypes debug types count = .ok t') : t'.module.exports = t.module.exports := by
  unfold translateTypes at h
  split_ifs at h
  · obtain rfl := Except.ok.inj h
    rfl
  · obtain ⟨v, -, h⟩ := bind_eq_ok.1 h
    obtain ⟨⟨types', moduleTypes⟩, -, h⟩ := bind_eq_ok.1 h
    obtain rfl := Except.ok.inj h
    rfl

theorem translateSection_exports {debug : Bool} {types : Option ValidatorTypes} {p : Payload}
    (h : t.translateSection debug types p = (.ok (.ok t') : Except Fault (Except Error _))) :
    t'.module.exports = insertExports t.module.exports p.exports := by
  cases p with
  | exportSection exports =>
    exact forItems_foldl (fun t => t.module.exports)
      (g := fun es e => insertExport e.name e.entity es) (fun _ _ _ => translateExport_exports) h
  | version | dataCountSection | codeSectionStart | end_ | unknown | startSection
    | codeSectionEntry =>
    obtain rfl := Except.ok.inj (Except.ok.inj h)
    rfl
  | typeSection count => exact translateTypes_exports (fallible_lift_eq_ok h)
  | importSection imports =>
    exact forItems_keeps (fun t => t.module.exports) (fun _ _ _ => translateImport_exports) h
  | functionSection functions =>
    refine forItems_keeps (fun t => t.module.exports) (fun t f t' h => ?_) h
    obtain rfl := Except.ok.inj (Except.ok.inj h)
    rfl
  | tableSection tables =>
    exact forItems_keeps (fun t => t.module.exports) (fun _ _ _ => translateTable_exports) h
  | memorySection memories =>
    exact forItems_keeps (fun t => t.module.exports) (fun _ _ _ => translateMemory_exports) h
  | globalSection globals =>
    exact forItems_keeps (fun t => t.module.exports) (fun _ _ _ => translateGlobal_exports) h
  | elementSection elements =>
    obtain ⟨⟨t₁, n⟩, h₁, h⟩ := fallible_bind_eq_ok.1 h
    obtain rfl := Except.ok.inj (Except.ok.inj h)
    refine forItems_keeps (fun s => s.1.module.exports) ?_ h₁
    rintro ⟨t, n⟩ element ⟨t', n'⟩ h
    obtain ⟨t₂, h₂, h⟩ := fallible_bind_eq_ok.1 h
    obtain rfl := (Prod.mk.inj (Except.ok.inj (Except.ok.inj h))).1
    exact translateElement_exports h₂
  | dataSection data =>
    obtain ⟨⟨t₁, n⟩, h₁, h⟩ := fallible_bind_eq_ok.1 h
    obtain rfl := Except.ok.inj (Except.ok.inj h)
    refine forItems_keeps (fun s => s.1.module.exports) ?_ h₁
    rintro ⟨t, n⟩ entry ⟨t', n'⟩ h
    obtain ⟨t₂, h₂, h⟩ := fallible_bind_eq_ok.1 h
    obtain rfl := (Prod.mk.inj (Except.ok.inj (Except.ok.inj h))).1
    exact translateData_exports h₂
  | customSection contents => exact translateCustomSection_exports h
  | tagSection | component => cases h

/-! ## Whole modules -/

theorem Run.exports {debug : Bool} {ps : List Payload} (h : Run debug t ps t') :
    t'.module.exports = insertExports t.module.exports (declaredExports ps) := by
  induction h with
  | nil t => rfl
  | cons types head _ ih =>
    rw [ih, translateSection_exports head]
    unfold declaredExports insertExports
    rw [List.flatMap_cons, List.foldl_append]

theorem Run.not_tagSection {debug : Bool} {ps : List Payload} (h : Run debug t ps t') :
    .tagSection ∉ ps := by
  induction h with
  | nil t => exact List.not_mem_nil
  | cons types head _ ih =>
    intro hmem
    rcases List.mem_cons.1 hmem with rfl | hmem
    · cases head
    · exact ih hmem

theorem Translated.not_imports_tag {ps : List Payload} (ht : Translated ps t) :
    ∀ i ∈ (declared ps).imports, i.ty ≠ .tag := by
  intro i hi htag
  obtain ⟨i', -, -, -, hty⟩ := forall₂_exists_left ht.imports.flip hi
  rw [htag] at hty
  cases hty

/-- The exports of a module are those of the binary, in order, and the module has what they name. -/
theorem translate_exports {σ : Type} {V : Validator σ} {debug : Bool} {ps : List Payload}
    {v v' : σ} {types : ModuleTypes} (hv : ValidModule ps) (hexports : ValidExports ps)
    (h : translate V debug v (ps.map .ok) = .ok (.ok (t, types), v')) :
    t.module.exports = (declaredExports ps).map (fun e => (e.name, e.entity))
      ∧ ∀ e ∈ t.module.exports, t.module.HasEntity e.2 := by
  have hrun := translate_run h
  have ht := hrun.translated hv
  have heq : t.module.exports = (declaredExports ps).map fun e => (e.name, e.entity) := by
    rw [hrun.exports]
    exact insertExports_of_nodup hexports.nodup
  refine ⟨heq, fun e he => ?_⟩
  obtain ⟨e, hmem, rfl⟩ := List.mem_map.1 (heq ▸ he)
  show t.module.HasEntity e.entity
  unfold Wasmparser.Export.entity
  rcases hk : e.kind with _ | _ | _ | _ | _
  · obtain ⟨p, hp, he⟩ := List.mem_flatMap.1 hmem
    refine (ht.escaping e.index).2 ⟨p, hp, .inl ?_⟩
    cases p with
    | exportSection exports =>
      exact List.mem_flatMap.2 ⟨e, he, by simp [Wasmparser.Export.funcs, hk]⟩
    | _ => cases he
  · exact (hexports.tables e hmem hk).trans_eq ht.tables.symm
  · exact (hexports.memories e hmem hk).trans_eq ht.memories.symm
  · exact (hexports.globals e hmem hk).trans_eq ht.globals.symm
  · rcases hexports.tags e hmem hk with ⟨i, hi, htag⟩ | htag
    · exact absurd htag (ht.not_imports_tag i hi)
    · exact absurd htag hrun.not_tagSection

end ModuleTranslator

end K23VM
