import K23VM.Exports
import K23VM.Proofs.Initialize
import K23VM.Proofs.Instantiate
import K23VM.Proofs.ModuleExports

/-!
# What an export refers to

An export of an entity that the module defines refers to the storage of this entity in the vmctx, or to
the code of the function; an export of an imported entity refers to whatever the definition of the import
does.  The first is said by `getExportByIndex_defined`, the other by `getExportByIndex_imported`.
-/

namespace K23VM

open ModuleTranslator (Imported Translated)
open VMOffsets (Laid CountsOf)
open Wasmparser (Payload Validator ValidModule ValidExports declaredExports)

/-! ## Referents -/

/-- What a handle gives access to: code, or the definition in a vmctx. -/
inductive Referent where
  | function (wasmCall arrayCall vmctx : ℕ)
  | table (definition vmctx : ℕ)
  | memory (definition vmctx : ℕ)
  | global (definition vmctx : ℕ)
  deriving DecidableEq, Repr

/-- The vmctx of the instance that what is referred to belongs to. -/
def Referent.vmctx : Referent → ℕ
  | .function _ _ vmctx | .table _ vmctx | .memory _ vmctx | .global _ vmctx => vmctx

def Export.referent : Export → Referent
  | .function e => .function e.funcRef.wasmCall e.funcRef.arrayCall e.funcRef.vmctx
  | .table e => .table e.definition e.vmctx
  | .memory e => .memory e.definition e.vmctx
  | .global e => .global e.definition e.vmctx

namespace Store

/-- The object that a handle is looked up as. -/
def exported (store : Store) : Extern → Option Export
  | .func handle => (store.getFunction handle).map .function
  | .table handle => (store.getTable handle).map .table
  | .memory handle => (store.getMemory handle).map .memory
  | .global handle => (store.getGlobal handle).map .global

def referent (store : Store) (item : Extern) : Option Referent :=
  (store.exported item).map Export.referent

end Store

/-- The import that created an entity. -/
def TranslatedModule.importOf (m : TranslatedModule) : EntityIndex → Option Import
  | .function i => (m.imports.filter (·.func?.isSome))[i]?
  | .table i => (m.imports.filter (·.table?.isSome))[i]?
  | .memory i => (m.imports.filter (·.memory?.isSome))[i]?
  | .global i => (m.imports.filter (·.global?.isSome))[i]?
  | .tag _ => none

namespace Instance

variable (instance_ : Instance)

/-- The definition is the one at the accessor's offset in the instance's vmctx. -/
def OwnsAt (defIndex : Option ℕ) (accessor : ℕ → Except Fault ℕ) (definition vmctx : ℕ) : Prop :=
  ∃ i offset, defIndex = some i ∧ accessor i = .ok offset
    ∧ definition = instance_.vmctx.address + offset ∧ vmctx = instance_.vmctx.address

/-- What is referred to is an entity that the instance defines. -/
def Owns : EntityIndex → Referent → Prop
  | .function index, .function wasmCall arrayCall vmctx =>
    ∃ i info trampoline, instance_.module.translated.definedFuncIndex index = some i
      ∧ instance_.module.functionInfo[i]? = some info
      ∧ info.hostToWasmTrampoline = some trampoline
      ∧ wasmCall = instance_.module.code.base + info.wasmFuncLoc.start
      ∧ arrayCall = instance_.module.code.base + trampoline.start
      ∧ vmctx = instance_.vmctx.address
  | .table index, .table definition vmctx =>
    instance_.OwnsAt (instance_.module.translated.definedTableIndex index)
      instance_.module.offsets.vmctxVmtableDefinition definition vmctx
  | .memory index, .memory definition vmctx =>
    instance_.OwnsAt (instance_.module.translated.definedMemoryIndex index)
      instance_.module.offsets.vmctxVmmemoryDefinition definition vmctx
  | .global index, .global definition vmctx =>
    instance_.OwnsAt (instance_.module.translated.definedGlobalIndex index)
      instance_.module.offsets.vmctxVmglobalDefinition definition vmctx
  | _, _ => False

variable {instance_}

theorem Owns.vmctx_eq {entity : EntityIndex} {r : Referent} (h : instance_.Owns entity r) :
    r.vmctx = instance_.vmctx.address := by
  cases entity <;> cases r <;> first
    | exact h.elim
    | obtain ⟨_, _, _, _, _, rfl⟩ := h
      rfl
    | obtain ⟨_, _, _, _, _, _, _, _, rfl⟩ := h
      rfl

end Instance

/-! ## Modules -/

/-- The module was made from a valid binary. -/
structure Module.LoadedFrom (module : Module) (ps : List Payload) : Prop where
  valid : ValidModule ps
  exports : ValidExports ps
  translate : ∃ (σ : Type) (V : Validator σ) (debug : Bool) (v v' : σ) (t : ModuleTranslator)
    (types : ModuleTypes),
    ModuleTranslator.translate V debug v (ps.map .ok) = .ok (.ok (t, types), v')
      ∧ module.translated = t.module
  offsets : VMOffsets.forModule 8 module.translated = .ok module.offsets

namespace Module.LoadedFrom

variable {module : Module} {ps : List Payload}

theorem translated (h : module.LoadedFrom ps) :
    ∃ t, Translated ps t ∧ module.translated = t.module := by
  obtain ⟨σ, V, debug, v, v', t, types, hrun, hm⟩ := h.translate
  exact ⟨t, ModuleTranslator.translate_translated h.valid hrun, hm⟩

theorem laid (h : module.LoadedFrom ps) :
    Laid module.offsets ∧ CountsOf module.offsets module.translated :=
  VMOffsets.forModule_laid h.offsets

theorem exports_eq (h : module.LoadedFrom ps) :
    module.translated.exports = (declaredExports ps).map (fun e => (e.name, e.entity))
      ∧ ∀ e ∈ module.translated.exports, module.translated.HasEntity e.2 := by
  obtain ⟨σ, V, debug, v, v', t, types, hrun, hm⟩ := h.translate
  rw [hm]
  exact ModuleTranslator.translate_exports h.valid h.exports hrun

theorem exports_nodup (h : module.LoadedFrom ps) :
    (module.translated.exports.map Prod.fst).Nodup := by
  rw [h.exports_eq.1, List.map_map]
  exact h.exports.nodup

end Module.LoadedFrom

/-! ## Reading a vmctx -/

theorem VMRecord.size_pos (r : VMRecord) : 0 < r.layout.size := by
  cases r <;> exact Nat.succ_pos _

namespace OwnedVMContext

variable {vmctx : OwnedVMContext} {o : ℕ}

/-- What is there is what is read. -/
theorem recordAt_of_holds {r : VMRecord} (h : Holds vmctx.writes o r) : vmctx.recordAt o = some r := by
  obtain ⟨pre, post, hlog, hpost⟩ := h
  have hlater : post.reverse.find? (fun w => w.offset = o) = none := by
    refine List.find?_eq_none.2 fun w hw => ?_
    have hdisjoint := hpost w (List.mem_reverse.1 hw)
    have hw := w.record.size_pos
    have hr := r.size_pos
    simp only [decide_eq_true_eq]
    omega
  unfold recordAt
  rw [hlog, List.reverse_append, List.reverse_cons, List.append_assoc, List.find?_append, hlater]
  simp

theorem funcRefAt_of_holds {r : VMFuncRef} (h : Holds vmctx.writes o (.funcRef r)) :
    vmctx.funcRefAt o = r := by
  unfold funcRefAt
  rw [recordAt_of_holds h]

theorem tableImportAt_of_holds {x : VMTableImport} (h : Holds vmctx.writes o (.tableImport x)) :
    vmctx.tableImportAt o = x := by
  unfold tableImportAt
  rw [recordAt_of_holds h]

theorem memoryImportAt_of_holds {x : VMMemoryImport} (h : Holds vmctx.writes o (.memoryImport x)) :
    vmctx.memoryImportAt o = x := by
  unfold memoryImportAt
  rw [recordAt_of_holds h]

theorem globalImportAt_of_holds {x : VMGlobalImport} (h : Holds vmctx.writes o (.globalImport x)) :
    vmctx.globalImportAt o = x := by
  unfold globalImportAt
  rw [recordAt_of_holds h]

end OwnedVMContext

/-- The vmctx of the instance was filled in with the definitions of its imports. -/
def Instance.FilledIn (instance_ : Instance) (imports : Imports) : Prop :=
  ∃ debug builtinFunctions ev ev' tables memories,
    (initializeVmctx debug builtinFunctions ev instance_.vmctx.address tables memories
      instance_.module imports).Ends instance_.vmctx.writes ev'

section Reading

variable {data : Instance} {imports : Imports} {ps : List Payload} {i : ℕ}

namespace Module.LoadedFrom

/-- The `VMFuncRef` of a function that escapes is where its accessor says. -/
theorem funcRef_holds (h : data.module.LoadedFrom ps) (hcomplete : imports.Complete data.module.translated)
    (hfilled : data.FilledIn imports) {d : FunctionDesc}
    (hd : data.module.translated.functions[i]? = some d) (hesc : d.isEscaping) :
    ∃ debug o r, data.module.offsets.vmctxVmfuncRef d.funcRef = .ok o ∧ 0 < o
      ∧ vmFuncRef debug data.vmctx.address data.module imports d i = .ok r
      ∧ Holds data.vmctx.writes o (.funcRef r) := by
  obtain ⟨debug, _, _, _, _, _, hends⟩ := hfilled
  obtain ⟨t, ht, hm⟩ := h.translated
  obtain ⟨hl, hc⟩ := h.laid
  have hlt : d.funcRef < data.module.offsets.count .funcRefs := by
    show d.funcRef < data.module.offsets.numEscapedFuncs
    rw [hc.numEscapedFuncs]
    exact (hm ▸ ht.numbered).lt i d hd hesc
  obtain ⟨o, r, ho, ⟨f, d', ref, hd', hesc', heq, href, rfl⟩, hholds⟩ :=
    initializeVmctx_elements hl hc (hm ▸ ht.numbered) (hm ▸ ht.initialized) hcomplete hends .funcRefs
      d.funcRef hlt
  obtain rfl := (hm ▸ ht.numbered).inj f i d' d hd' hd hesc' heq
  obtain rfl := Option.some_inj.1 (hd.symm.trans hd')
  have hpos : 0 < o := by
    obtain ⟨-, rfl⟩ := VMOffsets.elementOffset_eq ho
    have := hl.le_arrayBegin .funcRefs
    omega
  exact ⟨debug, o, ref, ho, hpos, href, hholds⟩

theorem getExportedFunc_eq (h : data.module.LoadedFrom ps)
    (hcomplete : imports.Complete data.module.translated) (hfilled : data.FilledIn imports)
    {d : FunctionDesc} (hd : data.module.translated.functions[i]? = some d) (hesc : d.isEscaping) :
    ∃ debug r, vmFuncRef debug data.vmctx.address data.module imports d i = .ok r
      ∧ data.getExportedFunc i = .ok ⟨r⟩ := by
  obtain ⟨debug, o, r, ho, hpos, hr, hholds⟩ := h.funcRef_holds hcomplete hfilled hd hesc
  refine ⟨debug, r, hr, ?_⟩
  have hlt : i ≠ 2 ^ 32 - 1 := by
    obtain ⟨t, ht, hm⟩ := h.translated
    have hle := (hm ▸ ht.withinLimits).functions
    have := (List.getElem?_eq_some_iff.1 hd).1
    unfold TranslatedModule.MAX_WASM_FUNCTIONS at hle
    omega
  unfold Instance.getExportedFunc
  refine bind_eq_ok.2 ⟨(), congrArg (assertThat · _) (decide_eq_true hlt), bind_eq_ok.2
    ⟨d, unwrap_eq_ok.2 hd, ?_⟩⟩
  refine bind_eq_ok.2 ⟨o, ho, bind_eq_ok.2 ⟨_, ite_panicking_eq_ok.2 ⟨by omega, rfl⟩, ?_⟩⟩
  rw [OwnedVMContext.funcRefAt_of_holds hholds]
  rfl

end Module.LoadedFrom

/-! ## Defined entities -/

section Defined

variable (hl : Laid data.module.offsets) (hc : CountsOf data.module.offsets data.module.translated)
include hl hc

theorem getExportedTable_defined (hle : data.module.translated.numImportedTables ≤ i)
    (hlt : i < data.module.translated.tables.length) :
    ∃ e, data.getExportedTable i = .ok e
      ∧ data.OwnsAt (data.module.translated.definedTableIndex i)
        data.module.offsets.vmctxVmtableDefinition e.definition e.vmctx := by
  have hdef : data.module.translated.definedTableIndex i
      = some (i - data.module.translated.numImportedTables) :=
    (TranslatedModule.definedTableIndex_eq ..).trans (if_neg (Nat.not_lt.2 hle))
  have hoff : data.module.offsets.vmctxVmtableDefinition
      (i - data.module.translated.numImportedTables) = .ok _ :=
    hl.elementOffset_ok (k := .tables) (by
      show _ < data.module.offsets.numDefinedTables
      have := hc.numDefinedTables
      omega)
  refine ⟨⟨_, _, data.module.translated.tables[i]⟩, ?_, _, _, hdef, hoff, rfl, rfl⟩
  unfold Instance.getExportedTable
  simp only [hdef, hoff, List.getElem?_eq_getElem hlt]
  rfl

theorem getExportedMemory_defined (hle : data.module.translated.numImportedMemories ≤ i)
    (hlt : i < data.module.translated.memories.length) :
    ∃ e, data.getExportedMemory i = .ok e
      ∧ data.OwnsAt (data.module.translated.definedMemoryIndex i)
        data.module.offsets.vmctxVmmemoryDefinition e.definition e.vmctx := by
  have hdef : data.module.translated.definedMemoryIndex i
      = some (i - data.module.translated.numImportedMemories) :=
    (TranslatedModule.definedMemoryIndex_eq ..).trans (if_neg (Nat.not_lt.2 hle))
  have hoff : data.module.offsets.vmctxVmmemoryDefinition
      (i - data.module.translated.numImportedMemories) = .ok _ :=
    hl.elementOffset_ok (k := .memories) (by
      show _ < data.module.offsets.numDefinedMemories
      have := hc.numDefinedMemories
      omega)
  refine ⟨⟨_, _, data.module.translated.memories[i]⟩, ?_, _, _, hdef, hoff, rfl, rfl⟩
  unfold Instance.getExportedMemory
  simp only [hdef, hoff, List.getElem?_eq_getElem hlt]
  rfl

theorem getExportedGlobal_defined (hle : data.module.translated.numImportedGlobals ≤ i)
    (hlt : i < data.module.translated.globals.length) :
    ∃ e, data.getExportedGlobal i = .ok e
      ∧ data.OwnsAt (data.module.translated.definedGlobalIndex i)
        data.module.offsets.vmctxVmglobalDefinition e.definition e.vmctx := by
  have hdef : data.module.translated.definedGlobalIndex i
      = some (i - data.module.translated.numImportedGlobals) :=
    (TranslatedModule.definedGlobalIndex_eq ..).trans (if_neg (Nat.not_lt.2 hle))
  have hoff : data.module.offsets.vmctxVmglobalDefinition
      (i - data.module.translated.numImportedGlobals) = .ok _ :=
    hl.elementOffset_ok (k := .globals) (by
      show _ < data.module.offsets.numDefinedGlobals
      have := hc.numDefinedGlobals
      omega)
  refine ⟨⟨_, _, data.module.translated.globals[i]⟩, ?_, _, _, hdef, hoff, rfl, rfl⟩
  unfold Instance.getExportedGlobal
  simp only [hdef, hoff, List.getElem?_eq_getElem hlt]
  rfl

end Defined

/-- The imports of each kind are as many as the imported entities. -/
structure ImportCounts (m : TranslatedModule) : Prop where
  functions : (m.imports.filter (·.func?.isSome)).length = m.numImportedFunctions
  tables : (m.imports.filter (·.table?.isSome)).length = m.numImportedTables
  memories : (m.imports.filter (·.memory?.isSome)).length = m.numImportedMemories
  globals : (m.imports.filter (·.global?.isSome)).length = m.numImportedGlobals

theorem importCounts {m : TranslatedModule} (hi : Imported m) : ImportCounts m := by
  refine ⟨?_, ?_, ?_, ?_⟩
  · exact (length_filter_isSome _ _).trans hi.functions
  · rw [length_filter_isSome, hi.tables, List.length_take, min_eq_left hi.tables_le]
  · rw [length_filter_isSome, hi.memories, List.length_take, min_eq_left hi.memories_le]
  · rw [length_filter_isSome, hi.globals, List.length_take, min_eq_left hi.globals_le]

namespace Module.LoadedFrom

theorem importCounts (h : data.module.LoadedFrom ps) : ImportCounts data.module.translated := by
  obtain ⟨t, ht, hm⟩ := h.translated
  exact K23VM.importCounts (hm ▸ ht.imported)

/-- The export of an entity that the module defines refers to this entity. -/
theorem getExportByIndex_defined (h : data.module.LoadedFrom ps)
    (hcomplete : imports.Complete data.module.translated) (hfilled : data.FilledIn imports)
    {entity : EntityIndex} (hhas : data.module.translated.HasEntity entity)
    (hdef : data.module.translated.importOf entity = none) :
    ∃ export_, data.getExportByIndex entity = .ok export_ ∧ data.Owns entity export_.referent := by
  obtain ⟨hl, hc⟩ := h.laid
  have hcounts := h.importCounts
  cases entity with
  | function i =>
    obtain ⟨d, hd, hesc⟩ := hhas
    obtain ⟨debug, r, hr, hget⟩ := h.getExportedFunc_eq hcomplete hfilled hd hesc
    have hle := hcounts.functions ▸ List.getElem?_eq_none_iff.1 hdef
    obtain ⟨info, tramp, hinfo, htramp, hwasm, harray, hvmctx⟩ := vmFuncRef_eq_ok hle hr
    have hindex := (data.module.translated.definedFuncIndex_eq i).trans (if_neg (Nat.not_lt.2 hle))
    exact ⟨.function ⟨r⟩, bind_eq_ok.2 ⟨_, hget, rfl⟩, _, info, tramp, hindex, hinfo, htramp, hwasm, harray,
      hvmctx⟩
  | table i =>
    obtain ⟨e, he, howns⟩ := getExportedTable_defined hl hc
      (hcounts.tables ▸ List.getElem?_eq_none_iff.1 hdef) hhas
    exact ⟨.table e, bind_eq_ok.2 ⟨e, he, rfl⟩, howns⟩
  | memory i =>
    obtain ⟨e, he, howns⟩ := getExportedMemory_defined hl hc
      (hcounts.memories ▸ List.getElem?_eq_none_iff.1 hdef) hhas
    exact ⟨.memory e, bind_eq_ok.2 ⟨e, he, rfl⟩, howns⟩
  | global i =>
    obtain ⟨e, he, howns⟩ := getExportedGlobal_defined hl hc
      (hcounts.globals ▸ List.getElem?_eq_none_iff.1 hdef) hhas
    exact ⟨.global e, bind_eq_ok.2 ⟨e, he, rfl⟩, howns⟩
  | tag i => cases hhas

end Module.LoadedFrom

/-! ## Imported entities -/

section Imported

variable (hrecords : RecordsLand data.module imports data.vmctx.writes)
include hrecords

theorem getExportedTable_imported (himp : i < data.module.translated.numImportedTables)
    (hlt : i < data.module.translated.tables.length) {x : VMTableImport}
    (hx : imports.tables[i]? = some x) :
    ∃ table, data.getExportedTable i = .ok ⟨x.from_, x.vmctx, table⟩ := by
  have hnone : data.module.translated.definedTableIndex i = none :=
    (TranslatedModule.definedTableIndex_eq ..).trans (if_pos himp)
  obtain ⟨o, ho, hholds⟩ := hrecords.tables i x hx
  refine ⟨data.module.translated.tables[i], ?_⟩
  unfold Instance.getExportedTable
  simp only [hnone, ho, List.getElem?_eq_getElem hlt]
  rw [← OwnedVMContext.tableImportAt_of_holds hholds]
  rfl

theorem getExportedMemory_imported (himp : i < data.module.translated.numImportedMemories)
    (hlt : i < data.module.translated.memories.length) {x : VMMemoryImport}
    (hx : imports.memories[i]? = some x) :
    ∃ memory, data.getExportedMemory i = .ok ⟨x.from_, x.vmctx, memory⟩ := by
  have hnone : data.module.translated.definedMemoryIndex i = none :=
    (TranslatedModule.definedMemoryIndex_eq ..).trans (if_pos himp)
  obtain ⟨o, ho, hholds⟩ := hrecords.memories i x hx
  refine ⟨data.module.translated.memories[i], ?_⟩
  unfold Instance.getExportedMemory
  simp only [hnone, ho, List.getElem?_eq_getElem hlt]
  rw [← OwnedVMContext.memoryImportAt_of_holds hholds]
  rfl

theorem getExportedGlobal_imported (himp : i < data.module.translated.numImportedGlobals)
    (hlt : i < data.module.translated.globals.length) {x : VMGlobalImport}
    (hx : imports.globals[i]? = some x) :
    ∃ ty, data.getExportedGlobal i = .ok ⟨x.from_, x.vmctx, ty⟩ := by
  have hnone : data.module.translated.definedGlobalIndex i = none :=
    (TranslatedModule.definedGlobalIndex_eq ..).trans (if_pos himp)
  obtain ⟨o, ho, hholds⟩ := hrecords.globals i x hx
  refine ⟨data.module.translated.globals[i], ?_⟩
  unfold Instance.getExportedGlobal
  simp only [hnone, ho, List.getElem?_eq_getElem hlt]
  rw [← OwnedVMContext.globalImportAt_of_holds hholds]
  rfl

end Imported

/-- The export of an imported entity refers to what the definition of the import does. -/
theorem Module.LoadedFrom.getExportByIndex_imported (h : data.module.LoadedFrom ps) {linker : Linker}
    {store : Store} (hres : linker.resolveImports store data.module
      = (.ok (.ok imports) : Except Fault (Except Error _)))
    (hfilled : data.FilledIn imports) {entity : EntityIndex}
    (hhas : data.module.translated.HasEntity entity) {import_ : Import}
    (himport : data.module.translated.importOf entity = some import_) :
    ∃ export_ item, data.getExportByIndex entity = .ok export_
      ∧ linker.get import_.module import_.name = some item
      ∧ store.referent item = some export_.referent := by
  obtain ⟨t, ht, hm⟩ := h.translated
  obtain ⟨hl, hc⟩ := h.laid
  have hland := hm ▸ resolveImports_land ht hm hres
  have hcounts := h.importCounts
  have hrecords : RecordsLand data.module imports data.vmctx.writes := by
    obtain ⟨_, _, _, _, _, _, hends⟩ := hfilled
    exact initializeVmctx_land hl hc (hm ▸ ht.numbered) hland.complete hends
  cases entity with
  | function i =>
    obtain ⟨d, hd, hesc⟩ := hhas
    have hlt := hcounts.functions ▸ (List.getElem?_eq_some_iff.1 himport).1
    obtain ⟨debug, r, hr, hget⟩ := h.getExportedFunc_eq hland.complete hfilled hd hesc
    obtain ⟨_, imp, x, -, himp, -, -, hx, handle, e, hitem, he, rfl⟩ := hland.functions.defined i hlt
    obtain rfl := Option.some_inj.1 (himport.symm.trans himp)
    obtain ⟨ty, -, rfl⟩ := vmFuncRef_imported hlt hx hr
    refine ⟨.function ⟨_⟩, .func handle, bind_eq_ok.2 ⟨_, hget, rfl⟩, hitem, ?_⟩
    simp [Store.referent, Store.exported, Store.getFunction, Store.getIn, he, Export.referent]
  | table i =>
    have hlt := hcounts.tables ▸ (List.getElem?_eq_some_iff.1 himport).1
    obtain ⟨_, imp, x, -, himp, -, -, hx, handle, e, hitem, he, rfl⟩ := hland.tables.defined i hlt
    obtain rfl := Option.some_inj.1 (himport.symm.trans himp)
    obtain ⟨table, hget⟩ := getExportedTable_imported hrecords hlt hhas hx
    refine ⟨_, .table handle, bind_eq_ok.2 ⟨_, hget, rfl⟩, hitem, ?_⟩
    simp [Store.referent, Store.exported, Store.getTable, Store.getIn, he, Export.referent]
  | memory i =>
    have hlt := hcounts.memories ▸ (List.getElem?_eq_some_iff.1 himport).1
    obtain ⟨_, imp, x, -, himp, -, -, hx, handle, e, hitem, he, rfl⟩ := hland.memories.defined i hlt
    obtain rfl := Option.some_inj.1 (himport.symm.trans himp)
    obtain ⟨memory, hget⟩ := getExportedMemory_imported hrecords hlt hhas hx
    refine ⟨_, .memory handle, bind_eq_ok.2 ⟨_, hget, rfl⟩, hitem, ?_⟩
    simp [Store.referent, Store.exported, Store.getMemory, Store.getIn, he, Export.referent]
  | global i =>
    have hlt := hcounts.globals ▸ (List.getElem?_eq_some_iff.1 himport).1
    obtain ⟨_, imp, x, -, himp, -, -, hx, handle, e, hitem, he, rfl⟩ := hland.globals.defined i hlt
    obtain rfl := Option.some_inj.1 (himport.symm.trans himp)
    obtain ⟨ty, hget⟩ := getExportedGlobal_imported hrecords hlt hhas hx
    refine ⟨_, .global handle, bind_eq_ok.2 ⟨_, hget, rfl⟩, hitem, ?_⟩
    simp [Store.referent, Store.exported, Store.getGlobal, Store.getIn, he, Export.referent]
  | tag i => cases hhas

end Reading

end K23VM
