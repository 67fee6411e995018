import K23VM.Linker
import K23VM.Proofs.VMContext

/-!
# The imports of an instance

The linker pushes the definition of each import onto the list of its kind, `resolveImports_pushes`, as
the translator numbers the imported entities by kind.  So the `i`-th record of a kind is the definition
of the import that created the entity `i`, and `initialize_vmctx` puts it where the accessor of that
entity says, `imports_land`.
-/

namespace K23VM

open ModuleTranslator (Declares Imported Translated)
open VMOffsets (Laid CountsOf)
open Wasmparser (Payload Validator ValidModule declared)

namespace Linker

variable {linker : Linker} {store : Store}

/-! ## Definitions -/

/-- The record of the function that is found for an import. -/
def FunctionDefinition (linker : Linker) (store : Store) (i : Import) (x : VMFunctionImport) : Prop :=
  ∃ (handle : ℕ) (e : ExportedFunction), linker.get i.module i.name = some (.func handle)
    ∧ store.exportedFuncs[handle]? = some e
    ∧ x = ⟨e.funcRef.wasmCall, e.funcRef.arrayCall, e.funcRef.vmctx⟩

def TableDefinition (linker : Linker) (store : Store) (i : Import) (x : VMTableImport) : Prop :=
  ∃ (handle : ℕ) (e : ExportedTable), linker.get i.module i.name = some (.table handle)
    ∧ store.exportedTables[handle]? = some e ∧ x = ⟨e.definition, e.vmctx⟩

def MemoryDefinition (linker : Linker) (store : Store) (i : Import) (x : VMMemoryImport) : Prop :=
  ∃ (handle : ℕ) (e : ExportedMemory), linker.get i.module i.name = some (.memory handle)
    ∧ store.exportedMemories[handle]? = some e ∧ x = ⟨e.definition, e.vmctx⟩

def GlobalDefinition (linker : Linker) (store : Store) (i : Import) (x : VMGlobalImport) : Prop :=
  ∃ (handle : ℕ) (e : ExportedGlobal), linker.get i.module i.name = some (.global handle)
    ∧ store.exportedGlobals[handle]? = some e ∧ x = ⟨e.definition, e.vmctx⟩

/-! ## Resolution -/

theorem index_eq_ok {α : Type} {items : List α} {handle : ℕ} {a : α} :
    Store.index items handle = .ok a ↔ items[handle]? = some a :=
  unwrap_eq_ok

/-- Resolving an import pushes its definition onto the list of its kind. -/
theorem resolveImport_cases {imports imports' : Imports} {i : Import}
    (h : linker.resolveImport store imports i = (.ok (.ok imports') : Except Fault (Except Error _))) :
    (∃ ty x, i.ty = .function ty ∧ FunctionDefinition linker store i x
      ∧ imports' = { imports with functions := imports.functions ++ [x] })
    ∨ (∃ ty x, i.ty = .table ty ∧ TableDefinition linker store i x
      ∧ imports' = { imports with tables := imports.tables ++ [x] })
    ∨ (∃ ty x, i.ty = .memory ty ∧ MemoryDefinition linker store i x
      ∧ imports' = { imports with memories := imports.memories ++ [x] })
    ∨ (∃ ty x, i.ty = .global ty ∧ GlobalDefinition linker store i x
      ∧ imports' = { imports with globals := imports.globals ++ [x] }) := by
  unfold resolveImport at h
  obtain ⟨d, hget, h⟩ := fallible_bind_eq_ok.1 h
  replace hget := fallible_okOr_eq_ok hget
  rcases hty : i.ty with ty | ty | ty | ty <;> cases d <;> simp only [hty] at h <;>
    first | cases h | skip
  all_goals
    obtain ⟨x, hx, h⟩ := fallible_bind_eq_ok.1 h
    obtain rfl := Except.ok.inj (Except.ok.inj h)
    obtain ⟨e, he, hx⟩ := bind_eq_ok.1 (fallible_lift_eq_ok hx)
    obtain rfl := Except.ok.inj hx
    rw [index_eq_ok] at he
  · exact .inl ⟨ty, _, rfl, ⟨_, e, hget, he, rfl⟩, rfl⟩
  · exact .inr (.inl ⟨ty, _, rfl, ⟨_, e, hget, he, rfl⟩, rfl⟩)
  · exact .inr (.inr (.inl ⟨ty, _, rfl, ⟨_, e, hget, he, rfl⟩, rfl⟩))
  · exact .inr (.inr (.inr ⟨ty, _, rfl, ⟨_, e, hget, he, rfl⟩, rfl⟩))

/-- Resolving imports pushes the definitions of those of a kind, in order. -/
theorem foldlM_pushes {α : Type} {f : Imports → List α} {p : Import → Bool}
    {D : Import → α → Prop}
    (hstep : ∀ imports imports' i,
      linker.resolveImport store imports i = (.ok (.ok imports') : Except Fault (Except Error _)) →
      (p i = true → ∃ x, D i x ∧ f imports' = f imports ++ [x])
        ∧ (p i = false → f imports' = f imports)) :
    ∀ {is : List Import} {imports imports' : Imports},
    is.foldlM (linker.resolveImport store) imports
      = (.ok (.ok imports') : Except Fault (Except Error _)) →
    ∃ new, f imports' = f imports ++ new ∧ List.Forall₂ D (is.filter p) new
  | [], imports, imports', h => by
    obtain rfl := Except.ok.inj (Except.ok.inj h)
    exact ⟨[], (List.append_nil _).symm, .nil⟩
  | i :: is, imports, imports', h => by
    rw [List.foldlM_cons] at h
    obtain ⟨imports₁, h₁, h⟩ := fallible_bind_eq_ok.1 h
    obtain ⟨new, hnew, hD⟩ := foldlM_pushes hstep h
    obtain ⟨hpush, hskip⟩ := hstep _ _ _ h₁
    rcases hp : p i with _ | _
    · refine ⟨new, by rw [hnew, hskip hp], ?_⟩
      rwa [List.filter_cons_of_neg (by simp [hp])]
    · obtain ⟨x, hx, hf⟩ := hpush hp
      refine ⟨x :: new, by rw [hnew, hf, List.append_assoc]; rfl, ?_⟩
      rw [List.filter_cons_of_pos hp]
      exact .cons hx hD

/-- The definitions of the imports, by kind. -/
structure Pushed (linker : Linker) (store : Store) (is : List Import) (imports : Imports) : Prop where
  functions : List.Forall₂ (FunctionDefinition linker store) (is.filter (·.func?.isSome))
    imports.functions
  tables : List.Forall₂ (TableDefinition linker store) (is.filter (·.table?.isSome)) imports.tables
  memories : List.Forall₂ (MemoryDefinition linker store) (is.filter (·.memory?.isSome))
    imports.memories
  globals : List.Forall₂ (GlobalDefinition linker store) (is.filter (·.global?.isSome))
    imports.globals

theorem resolveImports_pushes {module : Module} {imports : Imports}
    (h : linker.resolveImports store module = (.ok (.ok imports) : Except Fault (Except Error _))) :
    Pushed linker store module.translated.imports imports := by
  unfold resolveImports at h
  have hfunctions := foldlM_pushes (f := Imports.functions) (p := (·.func?.isSome))
    (D := FunctionDefinition linker store) (fun imports imports' i hi => ?_) h
  have htables := foldlM_pushes (f := Imports.tables) (p := (·.table?.isSome))
    (D := TableDefinition linker store) (fun imports imports' i hi => ?_) h
  have hmemories := foldlM_pushes (f := Imports.memories) (p := (·.memory?.isSome))
    (D := MemoryDefinition linker store) (fun imports imports' i hi => ?_) h
  have hglobals := foldlM_pushes (f := Imports.globals) (p := (·.global?.isSome))
    (D := GlobalDefinition linker store) (fun imports imports' i hi => ?_) h
  · obtain ⟨_, rfl, h₁⟩ := hfunctions
    obtain ⟨_, rfl, h₂⟩ := htables
    obtain ⟨_, rfl, h₃⟩ := hmemories
    obtain ⟨_, rfl, h₄⟩ := hglobals
    exact ⟨h₁, h₂, h₃, h₄⟩
  all_goals
    obtain ⟨ty, x, hty, hx, rfl⟩ | ⟨ty, x, hty, hx, rfl⟩ | ⟨ty, x, hty, hx, rfl⟩
      | ⟨ty, x, hty, hx, rfl⟩ := resolveImport_cases hi <;>
    simp only [Import.func?, Import.table?, Import.memory?, Import.global?, hty, Option.isSome,
      reduceCtorEq, false_imp_iff, true_imp_iff, and_true]
    exact ⟨x, hx, rfl⟩

end Linker

/-! ## Entities -/

/-- The `i`-th of the elements that `f` selects. -/
theorem filterMap_getElem? {α β : Type} (f : α → Option β) : ∀ (l : List α) (i : ℕ),
    (l.filterMap f)[i]? = (l.filter fun a => (f a).isSome)[i]?.bind f
  | [], i => by simp
  | a :: l, i => by
    rcases hf : f a with _ | b
    · rw [List.filterMap_cons_none hf, List.filter_cons_of_neg (by simp [hf]),
        filterMap_getElem? f l i]
    · rw [List.filterMap_cons_some hf, List.filter_cons_of_pos (by simp [hf])]
      cases i with
      | zero => simp [hf]
      | succ i => simpa using filterMap_getElem? f l i

theorem length_filter_isSome {α β : Type} (f : α → Option β) : ∀ l : List α,
    (l.filter fun a => (f a).isSome).length = (l.filterMap f).length
  | [] => rfl
  | a :: l => by
    rcases hf : f a with _ | b <;> simp [hf, length_filter_isSome f l]

/-- The records `xs` of one kind are at the indices of their entities: `ws` are the imports of this
kind in the binary, `is` those of the translated module, `D` says which records are the definition of
an import, and `Creates` which entity its declaration created. -/
structure Lands {α : Type} (isImported : ℕ → Bool) (n : ℕ) (ws : List Wasmparser.Import)
    (is : List Import) (D : Import → α → Prop) (Creates : Wasmparser.Import → Import → ℕ → Prop)
    (xs : List α) : Prop where
  length : xs.length = n
  imported : ∀ i, isImported i = true ↔ i < n
  declared : ∀ i, i < n ↔ ∃ w, ws[i]? = some w
  defined : ∀ i < n, ∃ w imp x, ws[i]? = some w ∧ is[i]? = some imp ∧ Declares w imp
    ∧ Creates w imp i ∧ xs[i]? = some x ∧ D imp x

theorem Lands.of_forall₂ {α : Type} {isImported : ℕ → Bool} {n : ℕ} {ws : List Wasmparser.Import}
    {is : List Import} {D : Import → α → Prop}
    {Creates : Wasmparser.Import → Import → ℕ → Prop} {xs : List α}
    (himp : ∀ i, isImported i = true ↔ i < n) (hlen : is.length = n)
    (hdecl : List.Forall₂ Declares ws is) (hdef : List.Forall₂ D is xs)
    (hcreates : ∀ i w imp, ws[i]? = some w → is[i]? = some imp → Creates w imp i) :
    Lands isImported n ws is D Creates xs := by
  have hws : ws.length = n := hdecl.length_eq.trans hlen
  refine ⟨hdef.length_eq.symm.trans hlen, himp, fun i => ?_, fun i hi => ?_⟩
  · rw [← hws]
    constructor
    · exact fun hi => ⟨_, List.getElem?_eq_getElem hi⟩
    · rintro ⟨w, hw⟩
      exact (List.getElem?_eq_some_iff.1 hw).1
  · have hw : ws[i]? = some (ws.get ⟨i, hws ▸ hi⟩) := List.getElem?_eq_getElem _
    obtain ⟨imp, hi', hd⟩ := forall₂_getElem? hdecl hw
    obtain ⟨x, hx, hD⟩ := forall₂_getElem? hdef hi'
    exact ⟨_, imp, x, hw, hi', hd, hcreates i _ imp hw hi', hx, hD⟩

/-- An import of the module is of the kind of the one in the binary. -/
theorem declares_kind {w : Wasmparser.Import} {imp : Import} (h : Declares w imp) :
    w.ty.isFunc = imp.func?.isSome ∧ w.ty.isTable = imp.table?.isSome
      ∧ w.ty.isMemory = imp.memory?.isSome ∧ w.ty.isGlobal = imp.global?.isSome := by
  obtain ⟨-, -, h⟩ := h
  unfold Import.func? Import.table? Import.memory? Import.global?
  cases hw : w.ty <;> cases hi : imp.ty <;> rw [hw, hi] at h <;>
    first | exact ⟨rfl, rfl, rfl, rfl⟩ | cases h

theorem ty_of_table? {imp : Import} {desc : TableDesc} (h : imp.table? = some desc) :
    imp.ty = .table desc := by
  unfold Import.table? at h
  split at h
  · obtain rfl := Option.some_inj.1 h
    assumption
  · cases h

theorem ty_of_memory? {imp : Import} {desc : MemoryDesc} (h : imp.memory? = some desc) :
    imp.ty = .memory desc := by
  unfold Import.memory? at h
  split at h
  · obtain rfl := Option.some_inj.1 h
    assumption
  · cases h

theorem ty_of_global? {imp : Import} {desc : GlobalDesc} (h : imp.global? = some desc) :
    imp.ty = .global desc := by
  unfold Import.global? at h
  split at h
  · obtain rfl := Option.some_inj.1 h
    assumption
  · cases h

/-- The imports of a kind in the binary are those of the module. -/
theorem declares_filter {ws : List Wasmparser.Import} {is : List Import}
    {p : Wasmparser.TypeRef → Bool} {q : Import → Bool}
    (hpq : ∀ w imp, Declares w imp → p w.ty = q imp) (h : List.Forall₂ Declares ws is) :
    List.Forall₂ Declares (ws.filter fun w => p w.ty) (is.filter q) :=
  List.rel_filter (fun w imp hd => by
    show p w.ty = true ↔ q imp = true
    rw [hpq w imp hd]) h

/-- The definitions of the imports are at the indices of the entities that these created. -/
structure ImportsLand (ps : List Payload) (m : TranslatedModule) (linker : Linker) (store : Store)
    (imports : Imports) : Prop where
  functions : Lands m.isImportedFunc m.numImportedFunctions
    ((declared ps).imports.filter (·.ty.isFunc)) (m.imports.filter (·.func?.isSome))
    (linker.FunctionDefinition store)
    (fun w _ i => ∃ ty, w.ty = .func ty ∧ m.functions[i]?.map FunctionDesc.signature = some ty)
    imports.functions
  tables : Lands m.isImportedTable m.numImportedTables
    ((declared ps).imports.filter (·.ty.isTable)) (m.imports.filter (·.table?.isSome))
    (linker.TableDefinition store)
    (fun _ imp i => ∃ desc, imp.ty = .table desc ∧ m.tables[i]? = some desc) imports.tables
  memories : Lands m.isImportedMemory m.numImportedMemories
    ((declared ps).imports.filter (·.ty.isMemory)) (m.imports.filter (·.memory?.isSome))
    (linker.MemoryDefinition store)
    (fun _ imp i => ∃ desc, imp.ty = .memory desc ∧ m.memories[i]? = some desc) imports.memories
  globals : Lands m.isImportedGlobal m.numImportedGlobals
    ((declared ps).imports.filter (·.ty.isGlobal)) (m.imports.filter (·.global?.isSome))
    (linker.GlobalDefinition store)
    (fun _ imp i => ∃ desc, imp.ty = .global desc ∧ m.globals[i]? = some desc) imports.globals

/-- The entity `i` of a kind is the one that the `i`-th import of this kind declares. -/
theorem created_of_take {α : Type} {f : Import → Option α} {is : List Import} {l : List α} {n i : ℕ}
    {imp : Import} (h : is.filterMap f = l.take n)
    (hi : (is.filter fun a => (f a).isSome)[i]? = some imp) :
    ∃ a, f imp = some a ∧ l[i]? = some a := by
  have hget := filterMap_getElem? f is i
  rw [hi, h, Option.bind_some] at hget
  obtain ⟨a, ha⟩ := Option.isSome_iff_exists.1 (List.mem_filter.1 (List.mem_of_getElem? hi)).2
  rw [ha, List.getElem?_take] at hget
  split_ifs at hget
  exact ⟨a, ha, hget⟩

/-- The function `i` has the type that the `i`-th import of a function declares. -/
theorem created_function {ps : List Payload} {t : ModuleTranslator} (ht : Translated ps t) {i : ℕ}
    {w : Wasmparser.Import} (hw : ((declared ps).imports.filter (·.ty.isFunc))[i]? = some w) :
    ∃ ty, w.ty = .func ty ∧ t.module.functions[i]?.map FunctionDesc.signature = some ty := by
  have hfilter : (declared ps).imports.filter (·.ty.isFunc)
      = (declared ps).imports.filter fun w => w.funcType?.isSome := by
    refine List.filter_congr fun w _ => ?_
    unfold Wasmparser.Import.funcType?
    cases w.ty <;> rfl
  have hty : ∃ ty, w.ty = .func ty := by
    have hfunc := (List.mem_filter.1 (List.mem_of_getElem? hw)).2
    cases hty : w.ty with
    | func ty => exact ⟨ty, rfl⟩
    | _ =>
      rw [hty] at hfunc
      cases hfunc
  obtain ⟨ty, hty⟩ := hty
  rw [hfilter] at hw
  have hget := filterMap_getElem? Wasmparser.Import.funcType? (declared ps).imports i
  rw [hw, Option.bind_some] at hget
  have hsome : w.funcType? = some ty := by
    unfold Wasmparser.Import.funcType?
    rw [hty]
  rw [hsome] at hget
  refine ⟨ty, hty, ?_⟩
  -- The imported types are the first of the signatures.
  obtain ⟨post, hpost⟩ := ModuleTranslator.declared_signatures ht.valid.ordered
  rw [← List.getElem?_map, ht.signatures, ← hpost,
    List.getElem?_append_left (List.getElem?_eq_some_iff.1 hget).1, hget]

theorem resolveImports_land {linker : Linker} {store : Store} {ps : List Payload}
    {t : ModuleTranslator} (ht : Translated ps t) {module : Module}
    (hm : module.translated = t.module) {imports : Imports}
    (h : linker.resolveImports store module = (.ok (.ok imports) : Except Fault (Except Error _))) :
    ImportsLand ps t.module linker store imports := by
  have hp := Linker.resolveImports_pushes h
  rw [hm] at hp
  have himp := ht.imported
  refine ⟨.of_forall₂ (fun i => decide_eq_true_iff) ?_ (declares_filter ?_ ht.imports) hp.functions ?_,
    .of_forall₂ (fun i => decide_eq_true_iff) ?_ (declares_filter ?_ ht.imports) hp.tables ?_,
    .of_forall₂ (fun i => decide_eq_true_iff) ?_ (declares_filter ?_ ht.imports) hp.memories ?_,
    .of_forall₂ (fun i => decide_eq_true_iff) ?_ (declares_filter ?_ ht.imports) hp.globals ?_⟩
  · exact (length_filter_isSome _ _).trans himp.functions
  · exact fun w imp hd => (declares_kind hd).1
  · intro i w imp hw _
    exact created_function ht hw
  · rw [length_filter_isSome, himp.tables, List.length_take, min_eq_left himp.tables_le]
  · exact fun w imp hd => (declares_kind hd).2.1
  · intro i w imp _ hi
    obtain ⟨desc, hdesc, hget⟩ := created_of_take himp.tables hi
    exact ⟨desc, ty_of_table? hdesc, hget⟩
  · rw [length_filter_isSome, himp.memories, List.length_take, min_eq_left himp.memories_le]
  · exact fun w imp hd => (declares_kind hd).2.2.1
  · intro i w imp _ hi
    obtain ⟨desc, hdesc, hget⟩ := created_of_take himp.memories hi
    exact ⟨desc, ty_of_memory? hdesc, hget⟩
  · rw [length_filter_isSome, himp.globals, List.length_take, min_eq_left himp.globals_le]
  · exact fun w imp hd => (declares_kind hd).2.2.2
  · intro i w imp _ hi
    obtain ⟨desc, hdesc, hget⟩ := created_of_take himp.globals hi
    exact ⟨desc, ty_of_global? hdesc, hget⟩

theorem ImportsLand.complete {ps : List Payload} {m : TranslatedModule} {linker : Linker}
    {store : Store} {imports : Imports} (h : ImportsLand ps m linker store imports) :
    imports.Complete m :=
  ⟨h.functions.length, h.tables.length, h.memories.length, h.globals.length⟩

/-! ## Records -/

section Records

variable {debug : Bool} {builtinFunctions : ℕ} {ev ev' : ConstExprEvaluator} {vmctx : ℕ}
  {tables : List Table} {memories : List InstanceMemory} {module : Module} {imports : Imports}
  {log : List VMWrite}

theorem mem_copyNonoverlapping {b : ℕ} {layout : Layout} {records : List VMRecord} {u : Unit}
    (h : (copyNonoverlapping b layout records).Ends log u) {i : ℕ} {r : VMRecord}
    (hr : records[i]? = some r) : ⟨b + i * layout.size, r⟩ ∈ log := by
  have hz : records.zipIdx[i]? = some (r, i) := by
    rw [List.getElem?_zipIdx, hr]
    simp
  obtain ⟨w, hw, heq⟩ := forall₂_getElem? (Logged.recordAll_ends h) hz
  obtain rfl := Except.ok.inj heq
  exact List.mem_of_getElem? hw

theorem mem_initializeVmfuncRefs {u : Unit}
    (h : (initializeVmfuncRefs debug vmctx module imports).Ends log u) {i : ℕ} {d : FunctionDesc}
    (hd : module.translated.functions[i]? = some d) (hesc : d.isEscaping) :
    ∃ o r, vmFuncRef debug vmctx module imports d i = .ok r
      ∧ module.offsets.vmctxVmfuncRef d.funcRef = .ok o ∧ ⟨o, .funcRef r⟩ ∈ log := by
  have hmem : (d, i) ∈ module.translated.functions.zipIdx.filter (·.1.isEscaping) := by
    refine List.mem_filter.2 ⟨List.mem_of_getElem? (i := i) ?_, hesc⟩
    rw [List.getElem?_zipIdx, hd]
    simp
  obtain ⟨n, hn⟩ := List.mem_iff_getElem?.1 hmem
  obtain ⟨w, hw, hg⟩ := forall₂_getElem? (Logged.recordAll_ends h) hn
  obtain ⟨r, hr, hg⟩ := bind_eq_ok.1 hg
  obtain ⟨o, ho, hg⟩ := bind_eq_ok.1 hg
  obtain rfl := Except.ok.inj hg
  exact ⟨o, r, hr, ho, List.mem_of_getElem? hw⟩

/-- The parts of an initialization that returned. -/
structure Phases (debug : Bool) (ev : ConstExprEvaluator) (vmctx : ℕ) (tables : List Table)
    (memories : List InstanceMemory) (module : Module) (imports : Imports) (log : List VMWrite)
    (ev' : ConstExprEvaluator) : Prop where
  funcRefs : ∃ l ⊆ log, (initializeVmfuncRefs debug vmctx module imports).Ends l ()
  importedFunctions : ∃ l ⊆ log, (copyNonoverlapping module.offsets.importedFunctions
    VMFunctionImport.layout (imports.functions.map .functionImport)).Ends l ()
  importedTables : ∃ l ⊆ log, (copyNonoverlapping module.offsets.importedTables VMTableImport.layout
    (imports.tables.map .tableImport)).Ends l ()
  importedMemories : ∃ l ⊆ log, (copyNonoverlapping module.offsets.importedMemories VMMemoryImport.layout
    (imports.memories.map .memoryImport)).Ends l ()
  importedGlobals : ∃ l ⊆ log, (copyNonoverlapping module.offsets.importedGlobals VMGlobalImport.layout
    (imports.globals.map .globalImport)).Ends l ()
  definedTables : ∃ l ⊆ log, (initializeDefinedTables tables module).Ends l ()
  definedMemories : ∃ l ⊆ log, (initializeDefinedMemories memories module).Ends l ()
  definedGlobals : ∃ l ⊆ log, (initializeDefinedGlobals ev module).Ends l ev'

theorem initializeVmctx_phases
    (h : (initializeVmctx debug builtinFunctions ev vmctx tables memories module imports).Ends log ev') :
    Phases debug ev vmctx tables memories module imports log ev' := by
  unfold initializeVmctx at h
  obtain ⟨l₁, r₁, _, -, h₁, rfl⟩ := Logged.bind_ends h
  obtain ⟨l₂, r₂, _, -, h₂, rfl⟩ := Logged.bind_ends h₁
  obtain ⟨l₃, r₃, _, -, h₃, rfl⟩ := Logged.bind_ends h₂
  obtain ⟨l₄, r₄, _, hrefs, h₄, rfl⟩ := Logged.bind_ends h₃
  obtain ⟨l₅, r₅, _, hfuncs, h₅, rfl⟩ := Logged.bind_ends h₄
  obtain ⟨l₆, r₆, _, htables, h₆, rfl⟩ := Logged.bind_ends h₅
  obtain ⟨l₇, r₇, _, hmemories, h₇, rfl⟩ := Logged.bind_ends h₆
  obtain ⟨l₈, r₈, _, hglobals, h₈, rfl⟩ := Logged.bind_ends h₇
  obtain ⟨l₉, r₉, _, hdefTables, h₉, rfl⟩ := Logged.bind_ends h₈
  obtain ⟨l₁₀, r₁₀, _, hdefMemories, hdefGlobals, rfl⟩ := Logged.bind_ends h₉
  refine ⟨⟨l₄, ?_, hrefs⟩, ⟨l₅, ?_, hfuncs⟩, ⟨l₆, ?_, htables⟩, ⟨l₇, ?_, hmemories⟩,
    ⟨l₈, ?_, hglobals⟩, ⟨l₉, ?_, hdefTables⟩, ⟨l₁₀, ?_, hdefMemories⟩, ⟨r₁₀, ?_, hdefGlobals⟩⟩
  all_goals
    intro w hw
    simp [hw]

/-- The func ref of an imported function has the pointers of its definition. -/
theorem vmFuncRef_imported {d : FunctionDesc} {i : ℕ} {r : VMFuncRef} {x : VMFunctionImport}
    (hlt : i < module.translated.numImportedFunctions) (hx : imports.functions[i]? = some x)
    (h : vmFuncRef debug vmctx module imports d i = .ok r) :
    ∃ ty, vmFuncRefTypeIndex module.translated.types module.typeCollection d.signature = .ok ty
      ∧ r = ⟨x.arrayCall, x.wasmCall, x.vmctx, ty⟩ := by
  unfold vmFuncRef at h
  rw [TranslatedModule.definedFuncIndex_eq, if_pos hlt] at h
  obtain ⟨x', hx', h⟩ := bind_eq_ok.1 h
  obtain ⟨ty, hty, h⟩ := bind_eq_ok.1 h
  obtain rfl := Except.ok.inj h
  obtain rfl := Option.some_inj.1 (hx.symm.trans (unwrap_eq_ok.1 hx'))
  exact ⟨ty, hty, rfl⟩

/-- The records of the imports are where the accessors of their entities say, and an escaping imported
function has a `VMFuncRef` with the pointers of its definition. -/
structure RecordsLand (module : Module) (imports : Imports) (log : List VMWrite) : Prop where
  functions : ∀ (i : ℕ) x, imports.functions[i]? = some x →
    ∃ o, module.offsets.vmctxVmfunctionImport i = .ok o ∧ Holds log o (.functionImport x)
  tables : ∀ (i : ℕ) x, imports.tables[i]? = some x →
    ∃ o, module.offsets.vmctxVmtableImport i = .ok o ∧ Holds log o (.tableImport x)
  memories : ∀ (i : ℕ) x, imports.memories[i]? = some x →
    ∃ o, module.offsets.vmctxVmmemoryImport i = .ok o ∧ Holds log o (.memoryImport x)
  globals : ∀ (i : ℕ) x, imports.globals[i]? = some x →
    ∃ o, module.offsets.vmctxVmglobalImport i = .ok o ∧ Holds log o (.globalImport x)
  funcRefs : ∀ (i : ℕ) d x, module.translated.functions[i]? = some d → d.isEscaping →
    imports.functions[i]? = some x →
    ∃ o ty, module.offsets.vmctxVmfuncRef d.funcRef = .ok o
      ∧ vmFuncRefTypeIndex module.translated.types module.typeCollection d.signature = .ok ty
      ∧ Holds log o (.funcRef ⟨x.arrayCall, x.wasmCall, x.vmctx, ty⟩)

theorem initializeVmctx_land (hl : Laid module.offsets)
    (hc : CountsOf module.offsets module.translated)
    (hn : ModuleTranslator.Numbered module.translated) (hi : imports.Complete module.translated)
    (h : (initializeVmctx debug builtinFunctions ev vmctx tables memories module imports).Ends log ev') :
    RecordsLand module imports log := by
  have hfilled : Filled module.offsets (moduleSlots module.translated) log :=
    ⟨(fills_initializeVmctx hl hc hi).ends _ _ h, moduleSlots_nodup hn⟩
  have hp := initializeVmctx_phases h
  -- A copied record is at the offset of its element, and nothing is written over it.
  have hcopied {k : VMOffsets.ArrayKind} {records : List VMRecord} {l : List VMWrite}
      (hsub : l ⊆ log) (hcopy : (copyNonoverlapping (module.offsets.arrayBegin k) k.layout
        records).Ends l ()) (hlen : records.length = module.offsets.count k) {i : ℕ} {r : VMRecord}
      (hr : records[i]? = some r) :
      ∃ o, module.offsets.elementOffset k i = .ok o ∧ Holds log o r := by
    have hlt : i < module.offsets.count k := hlen ▸ (List.getElem?_eq_some_iff.1 hr).1
    exact ⟨_, hl.elementOffset_ok hlt, hfilled.holds hl (hsub (mem_copyNonoverlapping hcopy hr))⟩
  refine ⟨fun i x hx => ?_, fun i x hx => ?_, fun i x hx => ?_, fun i x hx => ?_,
    fun i d x hd hesc hx => ?_⟩
  · obtain ⟨l, hsub, hcopy⟩ := hp.importedFunctions
    exact hcopied (k := .importedFunctions) hsub hcopy
      (by rw [List.length_map, hi.functions]; exact hc.numImportedFuncs.symm)
      (by rw [List.getElem?_map, hx]; rfl)
  · obtain ⟨l, hsub, hcopy⟩ := hp.importedTables
    exact hcopied (k := .importedTables) hsub hcopy
      (by rw [List.length_map, hi.tables]; exact hc.numImportedTables.symm)
      (by rw [List.getElem?_map, hx]; rfl)
  · obtain ⟨l, hsub, hcopy⟩ := hp.importedMemories
    exact hcopied (k := .importedMemories) hsub hcopy
      (by rw [List.length_map, hi.memories]; exact hc.numImportedMemories.symm)
      (by rw [List.getElem?_map, hx]; rfl)
  · obtain ⟨l, hsub, hcopy⟩ := hp.importedGlobals
    exact hcopied (k := .importedGlobals) hsub hcopy
      (by rw [List.length_map, hi.globals]; exact hc.numImportedGlobals.symm)
      (by rw [List.getElem?_map, hx]; rfl)
  · obtain ⟨l, hsub, hrefs⟩ := hp.funcRefs
    obtain ⟨o, r, hr, ho, hmem⟩ := mem_initializeVmfuncRefs hrefs hd hesc
    have hlt : i < module.translated.numImportedFunctions :=
      hi.functions ▸ (List.getElem?_eq_some_iff.1 hx).1
    obtain ⟨ty, hty, rfl⟩ := vmFuncRef_imported hlt hx hr
    exact ⟨o, ty, ho, hty, hfilled.holds hl (hsub hmem)⟩

end Records

/-- Each import lands at the index of the entity that it created: in the lists that the linker makes,
and in the vmctx that is filled in from them. -/
theorem imports_land {σ : Type} {V : Validator σ} {debug : Bool} {ps : List Payload} {v v' : σ}
    {t : ModuleTranslator} {types : ModuleTypes} (hv : ValidModule ps)
    (htr : ModuleTranslator.translate V debug v (ps.map .ok) = .ok (.ok (t, types), v'))
    {module : Module} (hm : module.translated = t.module)
    (hoff : VMOffsets.forModule 8 t.module = .ok module.offsets) {linker : Linker} {store : Store}
    {imports : Imports}
    (h : linker.resolveImports store module = (.ok (.ok imports) : Except Fault (Except Error _))) :
    ImportsLand ps t.module linker store imports
      ∧ ∀ {builtinFunctions vmctx tables memories ev ev' log},
        (initializeVmctx debug builtinFunctions ev vmctx tables memories module imports).Ends log ev' →
        RecordsLand module imports log := by
  have ht := ModuleTranslator.translate_translated hv htr
  have hland := resolveImports_land ht hm h
  obtain ⟨hl, hc⟩ := VMOffsets.forModule_laid hoff
  refine ⟨hland, fun hends => initializeVmctx_land hl (hm ▸ hc) (hm ▸ ht.numbered) ?_ hends⟩
  rw [hm]
  exact hland.complete

section Example

open ModuleTranslator (permissiveValidator)

/-- A binary that imports a global and a function, and exports the function. -/
def importingBinary : List Payload :=
  [.version, .typeSection 1,
    .importSection [.ok ⟨"env", "g", .global ⟨.i32, false, false⟩⟩, .ok ⟨"env", "f", .func 0⟩],
    .exportSection [.ok ⟨"f", .func, 0⟩], .end_]

theorem importingBinary_valid : ValidModule importingBinary where
  ordered := by
    show [1, 2, 8].Pairwise (· < ·)
    decide
  functions_le := by
    show 1 ≤ 1000000
    decide
  imports_le := by
    show 2 ≤ 1000000
    decide
  tables_le := Nat.zero_le _
  memories_le := Nat.zero_le _
  globals_le := by
    show 1 ≤ 1000000
    decide
  bodies := rfl
  offsets p hp := by
    simp only [importingBinary, List.mem_cons, List.not_mem_nil, or_false] at hp
    obtain rfl | rfl | rfl | rfl | rfl := hp <;> rfl
  declaredFuncs := by
    rintro body ⟨⟩

/-- A linker with a definition for each import. -/
def importingLinker : Linker where
  string2idx := [("env", 0), ("g", 1), ("f", 2)]
  strings := ["env", "g", "f"]
  map := [({ module := 0, name := 1 }, .global 0), ({ module := 0, name := 2 }, .func 0)]

def importingStore : Store where
  exportedFuncs := [⟨⟨0x1000, 0x2000, 0x3000, 5⟩⟩]
  exportedGlobals := [⟨0x3040, 0x3000, ⟨.i32, false, false⟩⟩]

/-- The module at hand, with one registered type. -/
def moduleOf (m : TranslatedModule) (off : VMOffsets) : Module where
  translated := m
  offsets := off
  code := ⟨0x8000, 0, [], []⟩
  typeCollection := ⟨[0], [5]⟩
  typeIds := 0x9000
  functionInfo := []

/-- The function and the global land at their indices. -/
theorem imports_land_importing :
    ∃ t types off imports log,
      ModuleTranslator.translate permissiveValidator true () (importingBinary.map .ok)
        = .ok (.ok (t, types), ())
      ∧ importingLinker.resolveImports importingStore (moduleOf t.module off)
        = (.ok (.ok imports) : Except Fault (Except Error _))
      ∧ (initializeVmctx true 0x7000 ⟨[]⟩ 0x6000 [] [] (moduleOf t.module off) imports).Ends log ⟨[]⟩
      ∧ imports.functions = [⟨0x2000, 0x1000, 0x3000⟩]
      ∧ ImportsLand importingBinary t.module importingLinker importingStore imports
      ∧ RecordsLand (moduleOf t.module off) imports log := by
  obtain ⟨t, types, off, imports, log, hrun, hoff, hres, hends, hfuncs⟩ : ∃ t types off imports log,
      ModuleTranslator.translate permissiveValidator true () (importingBinary.map .ok)
        = .ok (.ok (t, types), ())
      ∧ VMOffsets.forModule 8 t.module = .ok off
      ∧ importingLinker.resolveImports importingStore (moduleOf t.module off)
        = (.ok (.ok imports) : Except Fault (Except Error _))
      ∧ (initializeVmctx true 0x7000 ⟨[]⟩ 0x6000 [] [] (moduleOf t.module off) imports).Ends log ⟨[]⟩
      ∧ imports.functions = [⟨0x2000, 0x1000, 0x3000⟩] :=
    ⟨_, _, _, _, _, rfl, rfl, rfl, rfl, rfl⟩
  have hm : (moduleOf t.module off).translated = t.module := rfl
  obtain ⟨hland, hrecords⟩ := imports_land importingBinary_valid hrun hm hoff hres
  exact ⟨t, types, off, imports, log, hrun, hres, hends, hfuncs, hland, hrecords hends⟩

end Example

end K23VM
