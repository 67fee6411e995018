import K23VM.Proofs.Imports

/-!
# Filling in a vmctx

The accessors of a vmctx have a result for every index, and what they address is disjoint, inside of
the vmctx and in the order of the layout.  All writes of an initialization go where an accessor says,
and where it returns it has written every element of every array, `vmctx_filled`.
-/

namespace K23VM

open ModuleTranslator (Numbered Initialized)
open VMOffsets
open Wasmparser (Payload Validator ValidModule)

/-! ## Fields -/

namespace VMOffsets

/-- The fields of an element that have an accessor: where each starts in the element, and its size. -/
def ArrayKind.fields : ArrayKind → List (ℕ × ℕ)
  | .funcRefs => [(0, 8), (8, 8), (16, 8), (24, 4)]
  | .importedFunctions => [(0, 8), (8, 8), (16, 8)]
  | .globals => []
  | _ => [(0, 8), (8, 8)]

/-- The accessors for the fields of an element, in order. -/
def fieldAccessors (off : VMOffsets) : ArrayKind → List (ℕ → Except Fault ℕ)
  | .funcRefs => [off.vmctxVmfuncRefArrayCall, off.vmctxVmfuncRefWasmCall, off.vmctxVmfuncRefVmctx,
      off.vmctxVmfuncRefTypeIndex]
  | .importedFunctions => [off.vmctxVmfunctionImportWasmCall, off.vmctxVmfunctionImportArrayCall,
      off.vmctxVmfunctionImportVmctx]
  | .importedTables => [off.vmctxVmtableImportFrom, off.vmctxVmtableImportVmctx]
  | .importedMemories => [off.vmctxVmmemoryImportFrom, off.vmctxVmmemoryImportVmctx]
  | .importedGlobals => [off.vmctxVmglobalImportFrom, off.vmctxVmglobalImportVmctx]
  | .tables => [off.vmctxVmtableDefinitionBase, off.vmctxVmtableDefinitionCurrentLength]
  | .memories => [off.vmctxVmmemoryDefinitionBase, off.vmctxVmmemoryDefinitionCurrentLength]
  | .globals => []

variable {off : VMOffsets} {k : ArrayKind} {i : ℕ}

/-- The fields lie inside of their element. -/
theorem ArrayKind.fields_le : ∀ k : ArrayKind, ∀ f ∈ k.fields, f.1 + f.2 ≤ k.layout.size
  | .funcRefs | .importedFunctions | .globals | .importedTables | .importedMemories
  | .importedGlobals | .tables | .memories => by decide

theorem fieldAccessors_field : ∀ k : ArrayKind,
    List.Forall₂ (fun a f => a i = field (off.elementOffset k i) f.1) (off.fieldAccessors k) k.fields
  | .funcRefs => .cons rfl (.cons rfl (.cons rfl (.cons rfl .nil)))
  | .importedFunctions => .cons rfl (.cons rfl (.cons rfl .nil))
  | .globals => .nil
  | .importedTables | .importedMemories | .importedGlobals | .tables | .memories =>
    .cons rfl (.cons rfl .nil)

/-- The accessors for the fields of an element address these. -/
theorem Laid.fields_ok (h : Laid off) (hi : i < off.count k) {o : ℕ}
    (ho : off.elementOffset k i = .ok o) :
    List.Forall₂ (fun a f => a i = .ok (o + f.1)) (off.fieldAccessors k) k.fields := by
  refine forall₂_imp_mem (fieldAccessors_field (i := i) k) fun a _ f hf ha => ?_
  obtain ⟨-, rfl⟩ := elementOffset_eq ho
  have hend := (elementEnd_le hi).trans (h.arrayEnd_le k)
  have hf := k.fields_le f hf
  have hlt := h.size_lt
  rw [ha, ho]
  unfold field
  exact addU32OrPanic_eq_ok.2 ⟨by omega, rfl⟩

end VMOffsets

/-! ## Elements -/

/-- The record is the one for the element `i` of the array `k` of an instance. -/
def ElementRecord (debug : Bool) (vmctx : ℕ) (tables : List Table) (memories : List InstanceMemory)
    (module : Module) (imports : Imports) (i : ℕ) : ArrayKind → VMRecord → Prop
  | .funcRefs, r => ∃ (f : ℕ) (d : FunctionDesc) (ref : VMFuncRef),
      module.translated.functions[f]? = some d ∧ d.isEscaping ∧ d.funcRef = i
      ∧ vmFuncRef debug vmctx module imports d f = .ok ref ∧ r = .funcRef ref
  | .importedFunctions, r => ∃ x, imports.functions[i]? = some x ∧ r = .functionImport x
  | .importedTables, r => ∃ x, imports.tables[i]? = some x ∧ r = .tableImport x
  | .importedMemories, r => ∃ x, imports.memories[i]? = some x ∧ r = .memoryImport x
  | .importedGlobals, r => ∃ x, imports.globals[i]? = some x ∧ r = .globalImport x
  | .tables, r => ∃ table, tables[i]? = some table
      ∧ r = .tableDefinition table.asVmtableDefinition
  | .memories, r => ∃ memory, memories[i]? = some memory
      ∧ r = .memoryDefinition memory.asVmmemoryDefinition
  | .globals, r => ∃ (expr : ConstExpr) (ev ev' : ConstExprEvaluator) (val : VMVal),
      module.translated.globalInitializers[i]? = some expr ∧ ev.eval expr = .ok (val, ev')
      ∧ r = .globalDefinition (.fromVmval val)

section Elements

variable {debug : Bool} {builtinFunctions : ℕ} {ev ev' : ConstExprEvaluator} {vmctx : ℕ}
  {tables : List Table} {memories : List InstanceMemory} {module : Module} {imports : Imports}
  {log : List VMWrite}

theorem mem_initializeDefinedTables {u : Unit}
    (h : (initializeDefinedTables tables module).Ends log u) {i : ℕ}
    (hi : i < module.translated.tables.length - module.translated.numImportedTables) :
    ∃ o table, module.offsets.vmctxVmtableDefinition i = .ok o ∧ tables[i]? = some table
      ∧ ⟨o, .tableDefinition table.asVmtableDefinition⟩ ∈ log := by
  have hends := Logged.recordAll_ends h
  rw [definedTables_eq] at hends
  obtain ⟨w, hw, hg⟩ := forall₂_getElem? hends (List.getElem?_range hi)
  obtain ⟨o, ho, hg⟩ := bind_eq_ok.1 hg
  obtain ⟨table, htable, hg⟩ := bind_eq_ok.1 hg
  obtain rfl := Except.ok.inj hg
  exact ⟨o, table, ho, unwrap_eq_ok.1 htable, List.mem_of_getElem? hw⟩

/-- The memory `i` that a module defines is the one behind the imported ones. -/
theorem mem_definedMemories {m : TranslatedModule} {i : ℕ} {plan : MemoryDesc} :
    (i, plan) ∈ (m.memories.zipIdx.filterMap fun (plan, index) =>
      (m.definedMemoryIndex index).map (·, plan))
      ↔ m.memories[m.numImportedMemories + i]? = some plan := by
  rw [List.mem_filterMap]
  simp only [TranslatedModule.definedMemoryIndex_eq]
  constructor
  · rintro ⟨⟨plan', index⟩, hz, heq⟩
    have hz := List.mem_zipIdx_iff_getElem?.1 hz
    by_cases hlt : index < m.numImportedMemories
    · simp [hlt] at heq
    · simp only [hlt] at heq
      obtain ⟨rfl, rfl⟩ := Prod.mk.inj (Option.some_inj.1 heq)
      rw [Nat.add_sub_cancel' (Nat.le_of_not_lt hlt)]
      exact hz
  · intro hi
    refine ⟨(plan, m.numImportedMemories + i), List.mem_zipIdx_iff_getElem?.2 hi, ?_⟩
    simp

theorem mem_initializeDefinedMemories {u : Unit}
    (h : (initializeDefinedMemories memories module).Ends log u) {i : ℕ}
    (hi : i < module.translated.memories.length - module.translated.numImportedMemories) :
    ∃ o memory, module.offsets.vmctxVmmemoryDefinition i = .ok o ∧ memories[i]? = some memory
      ∧ ⟨o, .memoryDefinition memory.asVmmemoryDefinition⟩ ∈ log := by
  have hplan : module.translated.memories[module.translated.numImportedMemories + i]? = some _ :=
    List.getElem?_eq_getElem (by omega)
  obtain ⟨n, hn⟩ := List.mem_iff_getElem?.1 (mem_definedMemories.2 hplan)
  obtain ⟨w, hw, hg⟩ := forall₂_getElem? (Logged.recordAll_ends h) hn
  obtain ⟨_, -, hg⟩ := bind_eq_ok.1 hg
  obtain ⟨o, ho, hg⟩ := bind_eq_ok.1 hg
  obtain ⟨memory, hmemory, hg⟩ := bind_eq_ok.1 hg
  obtain rfl := Except.ok.inj hg
  exact ⟨o, memory, ho, unwrap_eq_ok.1 hmemory, List.mem_of_getElem? hw⟩

theorem mem_initializeDefinedGlobals (h : (initializeDefinedGlobals ev module).Ends log ev') {i : ℕ}
    {expr : ConstExpr} (hi : module.translated.globalInitializers[i]? = some expr) :
    ∃ o ev₁ ev₂ val, module.offsets.vmctxVmglobalDefinition i = .ok o
      ∧ ConstExprEvaluator.eval ev₁ expr = .ok (val, ev₂)
      ∧ ⟨o, .globalDefinition (.fromVmval val)⟩ ∈ log := by
  have hz : module.translated.globalInitializers.zipIdx[i]? = some (expr, i) := by
    rw [List.getElem?_zipIdx, hi]
    simp
  obtain ⟨w, hw, s, s', hg⟩ := forall₂_getElem? (Logged.forEach_ends h) hz
  obtain ⟨⟨val, s₁⟩, hval, hg⟩ := bind_eq_ok.1 hg
  obtain ⟨o, ho, hg⟩ := bind_eq_ok.1 hg
  obtain ⟨rfl, -⟩ := Prod.mk.inj (Except.ok.inj hg)
  exact ⟨o, s, s₁, val, ho, hval, List.mem_of_getElem? hw⟩

/-- An initialization that returned has written each element of the arrays, and nothing over it. -/
theorem initializeVmctx_elements (hl : Laid module.offsets)
    (hc : CountsOf module.offsets module.translated) (hn : Numbered module.translated)
    (hinit : Initialized module.translated) (hi : imports.Complete module.translated)
    (h : (initializeVmctx debug builtinFunctions ev vmctx tables memories module imports).Ends log ev')
    (k : ArrayKind) (i : ℕ) (hlt : i < module.offsets.count k) :
    ∃ o r, module.offsets.elementOffset k i = .ok o
      ∧ ElementRecord debug vmctx tables memories module imports i k r ∧ Holds log o r := by
  have hfilled : Filled module.offsets (moduleSlots module.translated) log :=
    ⟨(fills_initializeVmctx hl hc hi).ends _ _ h, moduleSlots_nodup hn⟩
  have hp := initializeVmctx_phases h
  have hland := initializeVmctx_land hl hc hn hi h
  cases k with
  | funcRefs =>
    obtain ⟨f, d, hd, hesc, rfl⟩ := hn.onto i (hc.numEscapedFuncs ▸ hlt)
    obtain ⟨l, hsub, hrefs⟩ := hp.funcRefs
    obtain ⟨o, r, hr, ho, hmem⟩ := mem_initializeVmfuncRefs hrefs hd hesc
    exact ⟨o, _, ho, ⟨f, d, r, hd, hesc, rfl, hr, rfl⟩, hfilled.holds hl (hsub hmem)⟩
  | importedFunctions =>
    have hx : imports.functions[i]? = some _ :=
      List.getElem?_eq_getElem (hi.functions ▸ hc.numImportedFuncs ▸ hlt)
    obtain ⟨o, ho, hholds⟩ := hland.functions i _ hx
    exact ⟨o, _, ho, ⟨_, hx, rfl⟩, hholds⟩
  | importedTables =>
    have hx : imports.tables[i]? = some _ :=
      List.getElem?_eq_getElem (hi.tables ▸ hc.numImportedTables ▸ hlt)
    obtain ⟨o, ho, hholds⟩ := hland.tables i _ hx
    exact ⟨o, _, ho, ⟨_, hx, rfl⟩, hholds⟩
  | importedMemories =>
    have hx : imports.memories[i]? = some _ :=
      List.getElem?_eq_getElem (hi.memories ▸ hc.numImportedMemories ▸ hlt)
    obtain ⟨o, ho, hholds⟩ := hland.memories i _ hx
    exact ⟨o, _, ho, ⟨_, hx, rfl⟩, hholds⟩
  | importedGlobals =>
    have hx : imports.globals[i]? = some _ :=
      List.getElem?_eq_getElem (hi.globals ▸ hc.numImportedGlobals ▸ hlt)
    obtain ⟨o, ho, hholds⟩ := hland.globals i _ hx
    exact ⟨o, _, ho, ⟨_, hx, rfl⟩, hholds⟩
  | tables =>
    obtain ⟨l, hsub, htables⟩ := hp.definedTables
    have hlt' : i < module.translated.tables.length - module.translated.numImportedTables :=
      hc.numDefinedTables ▸ hlt
    obtain ⟨o, table, ho, htable, hmem⟩ := mem_initializeDefinedTables htables hlt'
    exact ⟨o, _, ho, ⟨table, htable, rfl⟩, hfilled.holds hl (hsub hmem)⟩
  | memories =>
    obtain ⟨l, hsub, hmemories⟩ := hp.definedMemories
    have hlt' : i < module.translated.memories.length - module.translated.numImportedMemories :=
      hc.numDefinedMemories ▸ hlt
    obtain ⟨o, memory, ho, hmemory, hmem⟩ := mem_initializeDefinedMemories hmemories hlt'
    exact ⟨o, _, ho, ⟨memory, hmemory, rfl⟩, hfilled.holds hl (hsub hmem)⟩
  | globals =>
    have hlt' : i < module.translated.globals.length - module.translated.numImportedGlobals :=
      hc.numDefinedGlobals ▸ hlt
    have hexpr : module.translated.globalInitializers[i]? = some _ :=
      List.getElem?_eq_getElem (by
        have := hinit.2
        omega)
    obtain ⟨l, hsub, hglobals⟩ := hp.definedGlobals
    obtain ⟨o, ev₁, ev₂, val, ho, hval, hmem⟩ := mem_initializeDefinedGlobals hglobals hexpr
    exact ⟨o, _, ho, ⟨_, ev₁, ev₂, val, hexpr, hval, rfl⟩, hfilled.holds hl (hsub hmem)⟩

end Elements

/-! ## Returning -/

namespace InstanceAllocator

/-- There is one new entity for each that the module defines. -/
theorem allocateDefined_length {δ β : Type} {debug : Bool} {definedIndex : ℕ → Option ℕ}
    {allocate : δ → ℕ → Fallible Error β} : ∀ {plans : List δ} {n : ℕ} {done done' : List β},
    (plans.zipIdx n).foldlM (fun done (plan, index) => do
      match definedIndex index with
      | none => pure done
      | some defIndex => do
        let new ← allocate plan defIndex
        debugAssert debug (defIndex = done.length) "assertion `left == right` failed"
        pure (done ++ [new])) done = (.ok (.ok done') : Except Fault (Except Error _)) →
    done'.length = done.length + ((List.range' n plans.length).filterMap definedIndex).length
  | [], n, done, done', h => by
    obtain rfl := Except.ok.inj (Except.ok.inj h)
    rfl
  | plan :: plans, n, done, done', h => by
    rw [List.zipIdx_cons, List.foldlM_cons] at h
    obtain ⟨done₁, h₁, h⟩ := fallible_bind_eq_ok.1 h
    have ih := allocateDefined_length h
    rw [List.length_cons, List.range'_succ]
    rcases hdef : definedIndex n with _ | defIndex
    · simp only [hdef] at h₁
      obtain rfl := Except.ok.inj (Except.ok.inj h₁)
      rw [List.filterMap_cons_none hdef, ih]
    · simp only [hdef] at h₁
      obtain ⟨new, -, h₁⟩ := fallible_bind_eq_ok.1 h₁
      obtain ⟨_, -, h₁⟩ := fallible_bind_eq_ok.1 h₁
      obtain rfl := Except.ok.inj (Except.ok.inj h₁)
      rw [List.filterMap_cons_some hdef, ih, List.length_append, List.length_cons, List.length_cons,
        List.length_nil]
      omega

variable {debug : Bool} {alloc : InstanceAllocator} {module : Module} {vmctx : ℕ}
  {tables : List Table} {memories : List InstanceMemory}

theorem allocateModule_lengths
    (h : alloc.allocateModule debug module
      = (.ok (.ok (vmctx, tables, memories)) : Except Fault (Except Error _))) :
    tables.length = module.translated.tables.length - module.translated.numImportedTables
      ∧ memories.length
        = module.translated.memories.length - module.translated.numImportedMemories := by
  unfold allocateModule at h
  obtain ⟨_, -, h⟩ := fallible_bind_eq_ok.1 h
  obtain ⟨_, -, h⟩ := fallible_bind_eq_ok.1 h
  obtain ⟨ts, hts, h⟩ := fallible_bind_eq_ok.1 h
  obtain ⟨ms, hms, h⟩ := fallible_bind_eq_ok.1 h
  obtain ⟨_, -, h⟩ := fallible_bind_eq_ok.1 h
  have h := Except.ok.inj (Except.ok.inj h)
  obtain ⟨rfl, hdone⟩ := Prod.mk.inj h
  obtain ⟨rfl, rfl⟩ := Prod.mk.inj hdone
  have htables := allocateDefined_length hts
  have hmemories := allocateDefined_length hms
  rw [← List.range_eq_range'] at htables hmemories
  refine ⟨?_, ?_⟩
  · rw [htables, definedTables_eq, List.length_range, List.length_nil, Nat.zero_add]
  · rw [hmemories, definedMemories_eq, List.length_range, List.length_nil, Nat.zero_add]

end InstanceAllocator

/-- What an initialization needs to return: func refs for the functions that escape, no shared memories,
and initializers that the interpreter supports. -/
structure Ready (debug : Bool) (vmctx : ℕ) (module : Module) (imports : Imports) : Prop where
  funcRefs : ∀ (f : ℕ) d, module.translated.functions[f]? = some d → d.isEscaping →
    ∃ r, vmFuncRef debug vmctx module imports d f = .ok r
  unshared : ∀ (i : ℕ) plan,
    module.translated.memories[module.translated.numImportedMemories + i]? = some plan →
    plan.shared = false
  initializers : ∀ expr ∈ module.translated.globalInitializers,
    ∃ val, (⟨[]⟩ : ConstExprEvaluator).eval expr = .ok (val, ⟨[]⟩)

section Returning

variable {debug : Bool} {builtinFunctions : ℕ} {vmctx : ℕ} {tables : List Table}
  {memories : List InstanceMemory} {module : Module} {imports : Imports}

theorem copyNonoverlapping_returns (b : ℕ) (layout : Layout) (records : List VMRecord) :
    ∃ log, (copyNonoverlapping b layout records).Ends log () :=
  Logged.recordAll_returns fun _ _ => ⟨_, rfl⟩

theorem initializeVmctx_returns (hl : Laid module.offsets)
    (hc : CountsOf module.offsets module.translated) (hn : Numbered module.translated)
    (hinit : Initialized module.translated)
    (htables : tables.length = module.translated.tables.length - module.translated.numImportedTables)
    (hmemories : memories.length
      = module.translated.memories.length - module.translated.numImportedMemories)
    (hready : Ready debug vmctx module imports) :
    ∃ log, (initializeVmctx debug builtinFunctions ⟨[]⟩ vmctx tables memories module imports).Ends
      log ⟨[]⟩ := by
  have hok {k : ArrayKind} {i : ℕ} (hi : i < module.offsets.count k) :=
    hl.elementOffset_ok hi
  have hfuncRefs : ∃ log, (initializeVmfuncRefs debug vmctx module imports).Ends log () := by
    refine Logged.recordAll_returns fun a ha => ?_
    obtain ⟨hz, hesc⟩ := List.mem_filter.1 ha
    have hd : module.translated.functions[a.2]? = some a.1 := List.mem_zipIdx_iff_getElem?.1 hz
    obtain ⟨r, hr⟩ := hready.funcRefs a.2 a.1 hd hesc
    have hlt := hn.lt a.2 a.1 hd hesc
    rw [← hc.numEscapedFuncs] at hlt
    exact ⟨_, bind_eq_ok.2 ⟨r, hr, bind_eq_ok.2 ⟨_, hok (k := .funcRefs) hlt, rfl⟩⟩⟩
  have hdefTables : ∃ log, (initializeDefinedTables tables module).Ends log () := by
    refine Logged.recordAll_returns fun i hi => ?_
    rw [definedTables_eq] at hi
    have hlt := List.mem_range.1 hi
    have htable : tables[i]? = some _ := List.getElem?_eq_getElem (htables ▸ hlt)
    rw [← hc.numDefinedTables] at hlt
    exact ⟨_, bind_eq_ok.2 ⟨_, hok (k := .tables) hlt,
      bind_eq_ok.2 ⟨_, unwrap_eq_ok.2 htable, rfl⟩⟩⟩
  have hdefMemories : ∃ log, (initializeDefinedMemories memories module).Ends log () := by
    refine Logged.recordAll_returns fun a ha => ?_
    have hplan := mem_definedMemories.1 ha
    have hshared := hready.unshared a.1 a.2 hplan
    have hlt : a.1 < module.translated.memories.length - module.translated.numImportedMemories := by
      have := (List.getElem?_eq_some_iff.1 hplan).1
      omega
    have hmemory : memories[a.1]? = some _ := List.getElem?_eq_getElem (hmemories ▸ hlt)
    rw [← hc.numDefinedMemories] at hlt
    refine ⟨_, bind_eq_ok.2 ⟨(), ?_, bind_eq_ok.2 ⟨_, hok (k := .memories) hlt,
      bind_eq_ok.2 ⟨_, unwrap_eq_ok.2 hmemory, rfl⟩⟩⟩⟩
    rw [hshared]
    rfl
  have hdefGlobals : ∃ log, (initializeDefinedGlobals ⟨[]⟩ module).Ends log ⟨[]⟩ := by
    suffices h : ∃ log ev', (initializeDefinedGlobals ⟨[]⟩ module).Ends log ev' ∧ ev' = ⟨[]⟩ by
      obtain ⟨log, ev', hends, rfl⟩ := h
      exact ⟨log, hends⟩
    refine Logged.forEach_returns (fun a ha ev hev => ?_) rfl
    obtain rfl := hev
    have hget := List.mem_zipIdx_iff_getElem?.1 ha
    obtain ⟨val, hval⟩ := hready.initializers a.1 (List.mem_of_getElem? hget)
    have hlt : a.2 < module.translated.globals.length - module.translated.numImportedGlobals := by
      have := (List.getElem?_eq_some_iff.1 hget).1
      have := hinit.2
      omega
    rw [← hc.numDefinedGlobals] at hlt
    exact ⟨_, ⟨[]⟩, bind_eq_ok.2 ⟨_, hval, bind_eq_ok.2 ⟨_, hok (k := .globals) hlt, rfl⟩⟩, rfl⟩
  obtain ⟨l₁, h₁⟩ := hfuncRefs
  obtain ⟨l₂, h₂⟩ := copyNonoverlapping_returns module.offsets.importedFunctions
    VMFunctionImport.layout (imports.functions.map .functionImport)
  obtain ⟨l₃, h₃⟩ := copyNonoverlapping_returns module.offsets.importedTables
    VMTableImport.layout (imports.tables.map .tableImport)
  obtain ⟨l₄, h₄⟩ := copyNonoverlapping_returns module.offsets.importedMemories
    VMMemoryImport.layout (imports.memories.map .memoryImport)
  obtain ⟨l₅, h₅⟩ := copyNonoverlapping_returns module.offsets.importedGlobals
    VMGlobalImport.layout (imports.globals.map .globalImport)
  obtain ⟨l₆, h₆⟩ := hdefTables
  obtain ⟨l₇, h₇⟩ := hdefMemories
  obtain ⟨l₈, h₈⟩ := hdefGlobals
  unfold initializeVmctx
  exact ⟨_, .bind rfl (.bind rfl (.bind rfl (.bind h₁ (.bind h₂ (.bind h₃ (.bind h₄ (.bind h₅
    (.bind h₆ (.bind h₇ h₈)))))))))⟩

end Returning

/-! ## The whole vmctx -/

/-- What the accessors of a vmctx address is disjoint, inside of it, and in the order of the layout. -/
structure SlotsDisjoint (off : VMOffsets) : Prop where
  inside : ∀ s : Slot, s.Valid off → ∃ o, s.offset off = .ok o ∧ o + s.size ≤ off.size
  total : ∀ s t : Slot, s ≠ t → s.Before t ∨ t.Before s
  before : ∀ (s t : Slot) o o', s.Before t → s.offset off = .ok o → t.offset off = .ok o' →
    o + s.size ≤ o'
  fields : ∀ k i o, off.elementOffset k i = .ok o →
    List.Forall₂ (fun a f => a i = .ok (o + f.1)) (off.fieldAccessors k) k.fields

/-- The initialization of a vmctx writes into slots of the kind of the record only.  It writes each
element, and it returns where it is given what it needs. -/
structure FillsVmctx (debug : Bool) (module : Module) (imports : Imports) : Prop where
  writes : ∀ builtinFunctions ev vmctx tables memories,
    (initializeVmctx debug builtinFunctions ev vmctx tables memories module imports).Emits fun w =>
      ∃ s : Slot, s.Valid module.offsets ∧ w.Fills module.offsets s ∧ w.record.layout.size ≤ s.size
  elements : ∀ builtinFunctions ev vmctx tables memories log ev',
    (initializeVmctx debug builtinFunctions ev vmctx tables memories module imports).Ends log ev' →
    ∀ k i, i < module.offsets.count k → ∃ o r, module.offsets.elementOffset k i = .ok o
      ∧ ElementRecord debug vmctx tables memories module imports i k r ∧ Holds log o r
  returns : ∀ (alloc : InstanceAllocator) builtinFunctions vmctx tables memories,
    alloc.allocateModule debug module
      = (.ok (.ok (vmctx, tables, memories)) : Except Fault (Except Error _)) →
    Ready debug vmctx module imports →
    ∃ log, (initializeVmctx debug builtinFunctions ⟨[]⟩ vmctx tables memories module imports).Ends
      log ⟨[]⟩

/-- The vmctx of a module within the limits is laid out without overlaps, with offsets that fit into an
`i32`, and an instantiation fills it in. -/
theorem vmctx_filled {m : TranslatedModule} (h : m.WithinLimits) :
    ∃ off, forModule 8 m = .ok off ∧ off.size < 2 ^ 31 ∧ SlotsDisjoint off
      ∧ ∀ {σ : Type} {V : Validator σ} {debug : Bool} {ps : List Payload} {v v' : σ}
        {t : ModuleTranslator} {types : ModuleTypes} {module : Module} {linker : Linker}
        {store : Store} {imports : Imports}, ValidModule ps →
        ModuleTranslator.translate V debug v (ps.map .ok) = .ok (.ok (t, types), v') →
        t.module = m → module.translated = m → module.offsets = off →
        linker.resolveImports store module = (.ok (.ok imports) : Except Fault (Except Error _)) →
        FillsVmctx debug module imports := by
  obtain ⟨off, hoff, hsize⟩ := forModule_ok h
  obtain ⟨hl, hc⟩ := forModule_laid hoff
  refine ⟨off, hoff, hsize, ⟨fun s => hl.slot_ok, fun s t => Slot.before_or_before,
    fun s t o o' hst => hl.before hst, fun k i o ho => hl.fields_ok (elementOffset_eq ho).1 ho⟩, ?_⟩
  intro σ V debug ps v v' t types module linker store imports hv htr htm hm hmoff hres
  subst htm hmoff
  have ht := ModuleTranslator.translate_translated hv htr
  have hi := (resolveImports_land ht hm hres).complete
  rw [← hm] at hc hi
  have hn : Numbered module.translated := hm ▸ ht.numbered
  have hinit : Initialized module.translated := hm ▸ ht.initialized
  constructor
  · intro builtinFunctions ev vmctx tables memories w hw
    obtain ⟨s, hs⟩ := (fills_initializeVmctx hl hc hi).emits w hw
    refine ⟨s, ?_, hs, hs.2.size_le⟩
    cases s with
    | word => trivial
    | element k i => exact (elementOffset_eq hs.1).1
  · intro builtinFunctions ev vmctx tables memories log ev' hends
    exact initializeVmctx_elements hl hc hn hinit hi hends
  · intro alloc builtinFunctions vmctx tables memories halloc hready
    obtain ⟨htables, hmemories⟩ := InstanceAllocator.allocateModule_lengths halloc
    exact initializeVmctx_returns hl hc hn hinit htables hmemories hready

section Example

open ModuleTranslator (permissiveValidator)

/-- The vmctx of a module that imports a global and a function has 128 bytes, and is filled in. -/
theorem vmctx_filled_importing :
    ∃ t types off imports,
      ModuleTranslator.translate permissiveValidator true () (importingBinary.map .ok)
        = .ok (.ok (t, types), ())
      ∧ forModule 8 t.module = .ok off ∧ off.size = 128 ∧ SlotsDisjoint off
      ∧ FillsVmctx true (moduleOf t.module off) imports := by
  obtain ⟨t, types, off, imports, hrun, hoff, hsize, hres⟩ : ∃ t types off imports,
      ModuleTranslator.translate permissiveValidator true () (importingBinary.map .ok)
        = .ok (.ok (t, types), ())
      ∧ forModule 8 t.module = .ok off ∧ off.size = 128
      ∧ importingLinker.resolveImports importingStore (moduleOf t.module off)
        = (.ok (.ok imports) : Except Fault (Except Error _)) :=
    ⟨_, _, _, _, rfl, rfl, rfl, rfl⟩
  have ht := ModuleTranslator.translate_translated importingBinary_valid hrun
  obtain ⟨off', hoff', -, hdisjoint, hfills⟩ := vmctx_filled ht.withinLimits
  obtain rfl := Except.ok.inj (hoff.symm.trans hoff')
  exact ⟨t, types, off, imports, hrun, hoff, hsize, hdisjoint,
    hfills importingBinary_valid hrun rfl rfl rfl hres⟩

end Example

end K23VM
