import K23VM.Proofs.Escape
import K23VM.Proofs.FunctionTable
import K23VM.Proofs.Imports
import K23VM.Proofs.Link

/-!
# The func refs of an instance

The func refs of the functions that a module defines point at their own code and their own trampolines,
which are there for every function that escapes, `funcRefs_agree`.
-/

namespace K23VM

open Compile
open ModuleTranslator (Numbered Translated)
open VMOffsets (Laid CountsOf ArrayKind Slot)
open Wasmparser (Payload Validator ValidModule)

/-! ## Func refs -/

section FuncRefs

variable {debug : Bool} {vmctx : ℕ} {module : Module} {imports : Imports} {d : FunctionDesc} {i : ℕ}

/-- What `initialize_vmfunc_refs` would stop with for an escaping function without a trampoline. -/
def requiresTrampoline : Fault := .panic "escaping function requires trampoline"

theorem resolveFunctionLoc_eq_ok {code : CodeMemory} {loc : FunctionLoc} {a : ℕ}
    (h : code.resolveFunctionLoc debug loc = .ok a) : a = code.base + loc.start := by
  unfold CodeMemory.resolveFunctionLoc at h
  obtain ⟨addr, haddr, h⟩ := bind_eq_ok.1 h
  obtain ⟨_, -, h⟩ := bind_eq_ok.1 h
  obtain rfl := Except.ok.inj h
  exact (ite_panicking_eq_ok.1 haddr).2

theorem resolveFunctionLoc_ne {code : CodeMemory} {loc : FunctionLoc} :
    code.resolveFunctionLoc debug loc ≠ .error requiresTrampoline := by
  intro h
  unfold CodeMemory.resolveFunctionLoc at h
  rcases bind_eq_error.1 h with h | ⟨addr, -, h⟩
  · exact absurd (ite_panicking_eq_error h) (by decide)
  · rcases bind_eq_error.1 h with h | ⟨_, -, h⟩
    · exact absurd (debugAssert_eq_error h).2.2 (by decide)
    · cases h

theorem vmFuncRefTypeIndex_ne {types : List ℕ} {collection : RuntimeTypeCollection} {sig : ℕ} :
    vmFuncRefTypeIndex types collection sig ≠ .error requiresTrampoline := by
  intro h
  unfold vmFuncRefTypeIndex at h
  rcases bind_eq_error.1 h with h | ⟨index, -, h⟩
  · exact absurd (unwrap_eq_error h) (by decide)
  · exact absurd (unwrap_eq_error h) (by decide)

/-- A function that has its trampoline, or is imported, does not stop for the lack of one. -/
theorem vmFuncRef_ne (h : module.translated.numImportedFunctions ≤ i →
      ∀ info, module.functionInfo[i - module.translated.numImportedFunctions]? = some info →
        info.hostToWasmTrampoline.isSome) :
    vmFuncRef debug vmctx module imports d i ≠ .error requiresTrampoline := by
  intro herr
  unfold vmFuncRef at herr
  split at herr
  · next j hj =>
    rw [TranslatedModule.definedFuncIndex_eq] at hj
    split_ifs at hj with hlt
    obtain rfl := Option.some_inj.1 hj
    have hle := Nat.le_of_not_lt hlt
    rcases bind_eq_error.1 herr with herr | ⟨info, hinfo, herr⟩
    · exact absurd (unwrap_eq_error herr) (by decide)
    obtain ⟨tramp, htramp⟩ := Option.isSome_iff_exists.1 (h hle info (unwrap_eq_ok.1 hinfo))
    rw [htramp] at herr
    rcases bind_eq_error.1 herr with herr | ⟨_, -, herr⟩
    · cases herr
    rcases bind_eq_error.1 herr with herr | ⟨_, -, herr⟩
    · exact resolveFunctionLoc_ne herr
    rcases bind_eq_error.1 herr with herr | ⟨_, -, herr⟩
    · exact resolveFunctionLoc_ne herr
    rcases bind_eq_error.1 herr with herr | ⟨_, -, herr⟩
    · exact absurd (ite_panicking_eq_error herr) (by decide)
    rcases bind_eq_error.1 herr with herr | ⟨_, -, herr⟩
    · exact vmFuncRefTypeIndex_ne herr
    · cases herr
  · rcases bind_eq_error.1 herr with herr | ⟨_, -, herr⟩
    · exact absurd (unwrap_eq_error herr) (by decide)
    rcases bind_eq_error.1 herr with herr | ⟨_, -, herr⟩
    · exact vmFuncRefTypeIndex_ne herr
    · cases herr

/-- The func ref of a defined function has the addresses of its code and its trampoline. -/
theorem vmFuncRef_eq_ok (hle : module.translated.numImportedFunctions ≤ i) {r : VMFuncRef}
    (h : vmFuncRef debug vmctx module imports d i = .ok r) :
    ∃ info tramp, module.functionInfo[i - module.translated.numImportedFunctions]? = some info
      ∧ info.hostToWasmTrampoline = some tramp
      ∧ r.wasmCall = module.code.base + info.wasmFuncLoc.start
      ∧ r.arrayCall = module.code.base + tramp.start ∧ r.vmctx = vmctx := by
  unfold vmFuncRef at h
  rw [TranslatedModule.definedFuncIndex_eq, if_neg (Nat.not_lt.2 hle)] at h
  obtain ⟨info, hinfo, h⟩ := bind_eq_ok.1 h
  obtain ⟨tramp, htramp, h⟩ := bind_eq_ok.1 h
  obtain ⟨arrayCall, harray, h⟩ := bind_eq_ok.1 h
  obtain ⟨wasmCall, hwasm, h⟩ := bind_eq_ok.1 h
  obtain ⟨nonNull, hnonNull, h⟩ := bind_eq_ok.1 h
  obtain ⟨ty, -, h⟩ := bind_eq_ok.1 h
  obtain rfl := Except.ok.inj h
  refine ⟨info, tramp, unwrap_eq_ok.1 hinfo, unwrap_eq_ok.1 htramp, ?_,
    resolveFunctionLoc_eq_ok harray, rfl⟩
  exact (ite_panicking_eq_ok.1 hnonNull).2.trans (resolveFunctionLoc_eq_ok hwasm)

end FuncRefs

/-- A module of a valid binary, compiled and linked. -/
structure CompiledFrom {ε σ : Type} (debug : Bool) (compiler : Compiler ε)
    (tb : TextSectionBuilder σ) (builtins : List String) (t : ModuleTranslator)
    (u : UnlinkedCompileOutputs) (linked : Linked) : Prop where
  compile : ∃ inputs, fromModule t.module.moduleFunctions 0 t.functionBodies.length = .ok inputs
    ∧ Compile.compile compiler t.module.moduleFunctions builtins inputs
      = (.ok (.ok u) : Except Fault (Except ε _))
  link : linkAndFinish debug tb t.module.moduleFunctions u = .ok linked

section Compiled

variable {ε σ : Type} {debug : Bool} {compiler : Compiler ε} {tb : TextSectionBuilder σ}
  {builtins : List String} {ps : List Payload} {t : ModuleTranslator} {u : UnlinkedCompileOutputs}
  {linked : Linked}

theorem escaping_moduleFunctions {m : TranslatedModule} {j : ℕ} {d : FunctionDesc}
    (hd : m.functions[m.numImportedFunctions + j]? = some d) :
    m.moduleFunctions.escaping[m.moduleFunctions.funcIndex j]? = some d.isEscaping := by
  unfold TranslatedModule.moduleFunctions ModuleFunctions.funcIndex
  rw [List.getElem?_map, hd]
  rfl

/-- The table of a compiled module has an entry for each function that the module defines. -/
theorem CompiledFrom.funcs (h : CompiledFrom debug compiler tb builtins t u linked)
    (ht : Translated ps t) :
    linked.funcs.length = t.functionBodies.length
      ∧ ∀ j < t.functionBodies.length, ∃ info, linked.funcs[j]? = some info
        ∧ EntryOk compiler tb u linked t.module.moduleFunctions j info := by
  obtain ⟨inputs, hin, hu⟩ := h.compile
  have hlen : t.module.moduleFunctions.numImportedFunctions + t.functionBodies.length
      ≤ t.module.moduleFunctions.escaping.length := by
    unfold TranslatedModule.moduleFunctions
    rw [List.length_map]
    exact ht.bodies_length.le
  obtain ⟨jobs, hjobs⟩ := compile_jobs hlen hin hu
  exact linkAndFinish_funcs hjobs h.link

/-- The entry of an escaping function that the module defines has a trampoline. -/
theorem CompiledFrom.entry (h : CompiledFrom debug compiler tb builtins t u linked)
    (ht : Translated ps t) {i : ℕ} {d : FunctionDesc} (hd : t.module.functions[i]? = some d)
    (hle : t.module.numImportedFunctions ≤ i) :
    ∃ info, linked.funcs[i - t.module.numImportedFunctions]? = some info
      ∧ EntryOk compiler tb u linked t.module.moduleFunctions (i - t.module.numImportedFunctions) info
      ∧ t.module.moduleFunctions.escaping[t.module.moduleFunctions.funcIndex
        (i - t.module.numImportedFunctions)]? = some d.isEscaping := by
  have hlt := (List.getElem?_eq_some_iff.1 hd).1
  have hbodies := ht.bodies_length
  obtain ⟨info, hinfo, hentry⟩ := (h.funcs ht).2 (i - t.module.numImportedFunctions) (by omega)
  refine ⟨info, hinfo, hentry, escaping_moduleFunctions ?_⟩
  rw [Nat.add_sub_cancel' hle]
  exact hd

/-- The func refs of a module do not lack a trampoline, and point at the code and the trampoline of
their own functions. -/
structure FuncRefsOwn (compiler : Compiler ε) (tb : TextSectionBuilder σ) (t : ModuleTranslator)
    (u : UnlinkedCompileOutputs) (linked : Linked) (debug : Bool) (module : Module) : Prop where
  trampolines : ∀ vmctx imports,
    (initializeVmfuncRefs debug vmctx module imports).result ≠ .error requiresTrampoline
  own : ∀ vmctx imports (i : ℕ) d r, t.module.functions[i]? = some d → d.isEscaping →
    t.module.numImportedFunctions ≤ i → vmFuncRef debug vmctx module imports d i = .ok r →
    ∃ code tramp,
      LocatedAt compiler tb u linked (.function (i - t.module.numImportedFunctions)) code
      ∧ LocatedAt compiler tb u linked
        (.arrayToWasmTrampoline (i - t.module.numImportedFunctions)) tramp
      ∧ r.wasmCall = module.code.base + code.start ∧ r.arrayCall = module.code.base + tramp.start
      ∧ r.vmctx = vmctx

theorem CompiledFrom.funcRefsOwn (h : CompiledFrom debug compiler tb builtins t u linked)
    (ht : Translated ps t) {base typeIds : ℕ} {collection : RuntimeTypeCollection} {module : Module}
    (hm : Module.fromLinked t.module linked base collection typeIds = .ok module) :
    FuncRefsOwn compiler tb t u linked debug module := by
  unfold Module.fromLinked at hm
  obtain ⟨off, hoff, hm⟩ := bind_eq_ok.1 hm
  obtain rfl := Except.ok.inj hm
  obtain ⟨hl, hc⟩ := VMOffsets.forModule_laid hoff
  constructor
  · intro vmctx imports herr
    obtain ⟨⟨d, i⟩, hmem, herr⟩ := Logged.recordAll_error herr
    obtain ⟨hz, hesc⟩ := List.mem_filter.1 hmem
    have hd : t.module.functions[i]? = some d := List.mem_zipIdx_iff_getElem?.1 hz
    rcases bind_eq_error.1 herr with herr | ⟨r, -, herr⟩
    · refine vmFuncRef_ne (fun hle info hinfo => ?_) herr
      obtain ⟨info', hinfo', hentry, hflag⟩ := h.entry ht hd hle
      obtain rfl := Option.some_inj.1 (hinfo.symm.trans hinfo')
      obtain ⟨loc, hloc, -⟩ := hentry.trampoline (hflag.trans (congrArg some hesc))
      rw [hloc]
      rfl
    · -- The number of an escaping function is one that the accessor knows.
      have hlt : d.funcRef < off.count .funcRefs := by
        show d.funcRef < off.numEscapedFuncs
        rw [hc.numEscapedFuncs]
        exact ht.numbered.lt i d hd hesc
      have hok : off.vmctxVmfuncRef d.funcRef = .ok _ := hl.elementOffset_ok hlt
      simp only [hok] at herr
      cases herr
  · intro vmctx imports i d r hd hesc hle hr
    obtain ⟨info, tramp, hinfo, htramp, hwasm, harray, hvmctx⟩ := vmFuncRef_eq_ok hle hr
    obtain ⟨info', hinfo', hentry, hflag⟩ := h.entry ht hd hle
    obtain rfl := Option.some_inj.1 (hinfo.symm.trans hinfo')
    obtain ⟨loc, hloc, hlocated⟩ := hentry.trampoline (hflag.trans (congrArg some hesc))
    obtain rfl := Option.some_inj.1 (htramp.symm.trans hloc)
    exact ⟨info.wasmFuncLoc, tramp, hentry.wasmFuncLoc, hlocated, hwasm, harray, hvmctx⟩

/-- Func refs, the table of compiled functions and trampolines agree: flagging functions in any order
and any number of times numbers those that escape below their count and leaves given numbers as they
are, the table has the locations of each function's own code and trampoline, and the func refs of an
instance point at these. -/
theorem funcRefs_agree {τ : Type} {V : Validator τ} {v v' : τ} {types : ModuleTypes}
    (hv : ValidModule ps)
    (htr : ModuleTranslator.translate V debug v (ps.map .ok) = .ok (.ok (t, types), v'))
    (h : CompiledFrom debug compiler tb builtins t u linked) :
    Numbered t.module
      ∧ (∀ (t₁ t₂ : ModuleTranslator) escaped, Numbered t₁.module → t₁.flagEscaped escaped = .ok t₂ →
        Numbered t₂.module ∧ ∀ (f : ℕ) d, t₁.module.functions[f]? = some d → d.isEscaping →
          t₂.module.functions[f]? = some d)
      ∧ (∀ ps₁ ps₂, ps = ps₁ ++ ps₂ → ∃ t₁,
        ModuleTranslator.Run debug (.new (V.id v)) ps₁ t₁ ∧ ModuleTranslator.Run debug t₁ ps₂ t
        ∧ ∀ (f : ℕ) d, t₁.module.functions[f]? = some d → d.isEscaping →
          t.module.functions[f]? = some d)
      ∧ t.module.numImportedFunctions + linked.funcs.length = t.module.functions.length
      ∧ (∀ j < linked.funcs.length, ∃ info, linked.funcs[j]? = some info
        ∧ EntryOk compiler tb u linked t.module.moduleFunctions j info)
      ∧ ∀ base typeIds collection module,
        Module.fromLinked t.module linked base collection typeIds = .ok module →
        FuncRefsOwn compiler tb t u linked debug module := by
  have ht := ModuleTranslator.translate_translated hv htr
  obtain ⟨hlen, hfuncs⟩ := h.funcs ht
  refine ⟨ht.numbered, fun t₁ t₂ escaped hn hflag => ?_, fun ps₁ ps₂ hps => ?_, ?_, ?_,
    fun base typeIds collection module hm => h.funcRefsOwn ht hm⟩
  · have hflags := (ModuleTranslator.flagEscaped_flags hflag).2
    exact ⟨hflags.numbered hn, hflags.kept⟩
  · obtain ⟨t₁, h₁, h₂⟩ := (hps ▸ ModuleTranslator.translate_run htr).of_append
    exact ⟨t₁, h₁, h₂, h₂.extends.flags.kept⟩
  · rw [hlen]
    exact ht.bodies_length
  · rw [hlen]
    exact hfuncs

end Compiled

section Example

open ModuleTranslator (permissiveValidator segmentModule segmentModule_valid exprItems)

/-- A compiler for functions that return at once. -/
def returningCompiler : Compiler Unit where
  compileFunction _ := .ok ⟨[0xc3], [], [], [], 1, 0⟩
  compileArrayToWasmTrampoline _ := .ok ⟨[0x90, 0xc3], [], [], [], 1, 0⟩
  compileWasmToBuiltin _ := .error ()

/-- The function of the module is at the start of its code, and its trampoline is behind it. -/
theorem funcRefs_agree_returning :
    ∃ t types u linked,
      ModuleTranslator.translate permissiveValidator true () ((segmentModule exprItems).map .ok)
        = .ok (.ok (t, types), ())
      ∧ CompiledFrom true returningCompiler plainBuilder [] t u linked
      ∧ linked.funcs = [⟨⟨0, 1⟩, some ⟨1, 2⟩, 0⟩] ∧ Numbered t.module
      ∧ ∀ base typeIds collection module,
        Module.fromLinked t.module linked base collection typeIds = .ok module →
        FuncRefsOwn returningCompiler plainBuilder t u linked true module := by
  obtain ⟨t, types, u, linked, hrun, hcompiled, hfuncs⟩ : ∃ t types u linked,
      ModuleTranslator.translate permissiveValidator true () ((segmentModule exprItems).map .ok)
        = .ok (.ok (t, types), ())
      ∧ CompiledFrom true returningCompiler plainBuilder [] t u linked
      ∧ linked.funcs = [⟨⟨0, 1⟩, some ⟨1, 2⟩, 0⟩] :=
    ⟨_, _, _, _, rfl, ⟨⟨_, rfl, rfl⟩, rfl⟩, rfl⟩
  obtain ⟨hn, -, -, -, -, hown⟩ :=
    funcRefs_agree (segmentModule_valid (.inl (List.mem_singleton.2 rfl))) hrun hcompiled
  exact ⟨t, types, u, linked, hrun, hcompiled, hfuncs, hn, hown⟩

end Example

end K23VM
