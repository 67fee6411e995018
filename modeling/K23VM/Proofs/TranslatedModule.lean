import K23VM.Proofs.ModuleTranslator

/-!
# Translated modules of valid binaries

`ValidModule` collects what the validation of a binary promises and the results below need: the order
of its sections, the limits on its entities, and where a function may be named.  In a module that is
translated from such a binary the imported entities come first, in the order of the imports of their
kind, `translated_imported`, and the entities of each kind are as many as the binary declares.
-/

namespace K23VM

open Wasmparser (BinaryReaderError SectionReader Payload Validator ValidatorTypes)
open TranslatedModule (MAX_WASM_FUNCTIONS MAX_WASM_IMPORTS MAX_WASM_GLOBALS MAX_WASM_TABLES
  MAX_WASM_MEMORIES)

/-! ## Valid binaries -/

namespace Wasmparser

/-- The place of a section in a binary. -/
def Payload.order : Payload → Option ℕ
  | .typeSection _ => some 1
  | .importSection _ => some 2
  | .functionSection _ => some 3
  | .tableSection _ => some 4
  | .memorySection _ => some 5
  | .tagSection => some 6
  | .globalSection _ => some 7
  | .exportSection _ => some 8
  | .startSection _ => some 9
  | .elementSection _ => some 10
  | .dataCountSection _ => some 11
  | .codeSectionStart _ => some 12
  | .dataSection _ => some 13
  | _ => none

/-- The exported functions. -/
def Payload.exportedFuncs : Payload → List ℕ
  | .exportSection exports => exports.items.flatMap Export.funcs
  | _ => []

/-- The functions in the initial values of tables and globals and in the expressions of element
segments. -/
def Payload.refFuncs : Payload → List ℕ
  | .tableSection tables => tables.items.flatMap Table.refFuncs
  | .globalSection globals => globals.items.flatMap fun g => g.initExpr.refFuncs
  | .elementSection elements => elements.items.flatMap fun e => e.items.refFuncs
  | _ => []

def ElementItems.funcs : ElementItems → List ℕ
  | .functions funcs => funcs.items
  | .expressions _ => []

/-- The functions in the lists of functions of element segments. -/
def Payload.listFuncs : Payload → List ℕ
  | .elementSection elements => elements.items.flatMap fun e => e.items.funcs
  | _ => []

def ElementKind.offsetFuncs : ElementKind → List ℕ
  | .active _ offsetExpr => offsetExpr.refFuncs
  | _ => []

/-- The functions in the offsets of element segments. -/
def Payload.offsetFuncs : Payload → List ℕ
  | .elementSection elements => elements.items.flatMap fun e => e.kind.offsetFuncs
  | _ => []

/-- A function that the binary exports, or names in a constant expression or an element segment. -/
def MayEscape (ps : List Payload) (f : ℕ) : Prop :=
  ∃ p ∈ ps, f ∈ p.exportedFuncs ∨ f ∈ p.refFuncs ∨ f ∈ p.listFuncs ∨ f ∈ p.offsetFuncs

/-- What a valid binary declares in all. -/
def declared (ps : List Payload) : Contribution := .concat Payload.contribution ps

/-- What the validation of a binary promises. -/
structure ValidModule (ps : List Payload) : Prop where
  ordered : (ps.filterMap Payload.order).Pairwise (· < ·)
  functions_le : (declared ps).signatures.length ≤ MAX_WASM_FUNCTIONS
  imports_le : (declared ps).imports.length ≤ MAX_WASM_IMPORTS
  tables_le : (declared ps).tables ≤ MAX_WASM_TABLES
  memories_le : (declared ps).memories ≤ MAX_WASM_MEMORIES
  globals_le : (declared ps).globals ≤ MAX_WASM_GLOBALS
  /-- There is a body for each function that is not imported. -/
  bodies : (declared ps).imports.countP (·.ty.isFunc) + (declared ps).bodies.length
    = (declared ps).signatures.length
  /-- An offset is a number. -/
  offsets : ∀ p ∈ ps, p.offsetFuncs = []
  /-- A function that a body names in `ref.func` is named outside of the bodies too. -/
  declaredFuncs : ∀ body ∈ (declared ps).bodies, ∀ f ∈ body.refFuncs, MayEscape ps f

/-- The type that a function is imported with. -/
def Import.funcType? (i : Import) : Option ℕ :=
  match i.ty with
  | .func index => some index
  | _ => none

end Wasmparser

open Wasmparser (ValidModule declared)

/-! ## Imported entities -/

def Import.func? (i : Import) : Option CanonicalizedTypeIndex :=
  match i.ty with
  | .function ty => some ty
  | _ => none

def Import.table? (i : Import) : Option TableDesc :=
  match i.ty with
  | .table desc => some desc
  | _ => none

def Import.memory? (i : Import) : Option MemoryDesc :=
  match i.ty with
  | .memory desc => some desc
  | _ => none

def Import.global? (i : Import) : Option GlobalDesc :=
  match i.ty with
  | .global desc => some desc
  | _ => none

namespace ModuleTranslator

/-- All entities are imported. -/
structure AllImported (m : TranslatedModule) : Prop where
  functions : (m.imports.filterMap Import.func?).length = m.functions.length
  tables : m.imports.filterMap Import.table? = m.tables
  memories : m.imports.filterMap Import.memory? = m.memories
  globals : m.imports.filterMap Import.global? = m.globals
  numFunctions : m.numImportedFunctions = m.functions.length
  numTables : m.numImportedTables = m.tables.length
  numMemories : m.numImportedMemories = m.memories.length
  numGlobals : m.numImportedGlobals = m.globals.length

/-- The imported entities come first, in the order of the imports of their kind. -/
structure Imported (m : TranslatedModule) : Prop where
  functions : (m.imports.filterMap Import.func?).length = m.numImportedFunctions
  tables : m.imports.filterMap Import.table? = m.tables.take m.numImportedTables
  memories : m.imports.filterMap Import.memory? = m.memories.take m.numImportedMemories
  globals : m.imports.filterMap Import.global? = m.globals.take m.numImportedGlobals
  functions_le : m.numImportedFunctions ≤ m.functions.length
  tables_le : m.numImportedTables ≤ m.tables.length
  memories_le : m.numImportedMemories ≤ m.memories.length
  globals_le : m.numImportedGlobals ≤ m.globals.length

theorem translateImport_allImported {t t' : ModuleTranslator} {i : Wasmparser.Import}
    (h : t.translateImport i = (.ok (.ok t') : Except Fault (Except Error _)))
    (hi : AllImported t.module) : AllImported t'.module := by
  obtain ⟨h₁, h₂, h₃, h₄, h₅, h₆, h₇, h₈⟩ := hi
  obtain ⟨index, interned, -, rfl⟩ | ⟨ty, table, -, rfl⟩ | ⟨ty, memory, -, rfl⟩
    | ⟨ty, global, -, rfl⟩ := translateImport_cases h
  all_goals
    refine ⟨?_, ?_, ?_, ?_, ?_, ?_, ?_, ?_⟩ <;>
      simp [Import.func?, Import.table?, Import.memory?, Import.global?, *]

theorem forItems_invariant {α : Type} {f : ModuleTranslator → α → Fallible Error ModuleTranslator}
    {P : ModuleTranslator → Prop}
    (hf : ∀ t x t', f t x = (.ok (.ok t') : Except Fault (Except Error _)) → P t → P t') :
    ∀ {xs : SectionReader α} {t t' : ModuleTranslator},
    forItems f t xs = (.ok (.ok t') : Except Fault (Except Error _)) → P t → P t'
  | [], t, t', h, hp => by
    obtain rfl := Except.ok.inj (Except.ok.inj h)
    exact hp
  | .error e :: _, t, t', h, _ => by cases h
  | .ok x :: xs, t, t', h, hp => by
    unfold forItems at h
    obtain ⟨t₁, h₁, h⟩ := fallible_bind_eq_ok.1 h
    exact forItems_invariant hf h (hf t x t₁ h₁ hp)

/-- A section of entities that the module defines. -/
def defines : Payload → Bool
  | .functionSection _ | .tableSection _ | .memorySection _ | .globalSection _ => true
  | _ => false

theorem Grows.eq_of_zero {α : Type} {l l' : List α} (h : Grows l 0 l') : l' = l := by
  obtain ⟨new, rfl, hlen⟩ := h
  rw [List.length_eq_zero_iff.1 hlen, List.append_nil]

theorem Grows.length {α : Type} {l l' : List α} {n : ℕ} (h : Grows l n l') :
    l'.length = l.length + n := by
  obtain ⟨new, rfl, rfl⟩ := h
  exact List.length_append

theorem translateSection_allImported {debug : Bool} {types : Option ValidatorTypes}
    {t t' : ModuleTranslator} {p : Payload}
    (h : t.translateSection debug types p = (.ok (.ok t') : Except Fault (Except Error _)))
    (hp : defines p = false) (hi : AllImported t.module) : AllImported t'.module := by
  have hext := translateSection_extends h
  have hother : p.contribution.signatures = [] → p.contribution.tables = 0 →
      p.contribution.memories = 0 → p.contribution.globals = 0 → p.contribution.imports = [] →
      AllImported t'.module := by
    intro hs ht hm hg himp
    obtain ⟨new, hnew, hdecl⟩ := hext.imports
    obtain ⟨h₁, h₂, h₃, h₄, h₅, h₆, h₇, h₈⟩ := hi
    have hlen := congrArg List.length hext.flags.signatures
    have htb := hext.tables
    have hmem := hext.memories
    have hgl := hext.globals
    have hc := hext.counts
    rw [himp] at hdecl hc
    cases hdecl
    rw [ht] at htb
    rw [hm] at hmem
    rw [hg] at hgl
    simp only [List.length_map, List.length_append, hs, List.length_nil, Nat.add_zero] at hlen
    obtain ⟨c₁, c₂, c₃, c₄⟩ := hc
    simp only [List.countP_nil, Nat.add_zero] at c₁ c₂ c₃ c₄
    rw [List.append_nil] at hnew
    refine ⟨?_, ?_, ?_, ?_, ?_, ?_, ?_, ?_⟩ <;>
      simp only [htb.eq_of_zero, hmem.eq_of_zero, hgl.eq_of_zero, *]
  cases p with
  | importSection imports =>
    exact forItems_invariant (f := translateImport) (P := fun t => AllImported t.module)
      (fun _ _ _ => translateImport_allImported) h hi
  | functionSection | tableSection | memorySection | globalSection => cases hp
  | exportSection exports =>
    rw [Payload.contribution, concat_escaped] at hother
    exact hother rfl rfl rfl rfl rfl
  | elementSection elements =>
    rw [Payload.contribution, concat_escaped] at hother
    exact hother rfl rfl rfl rfl rfl
  | _ => exact hother rfl rfl rfl rfl rfl

theorem Run.allImported {debug : Bool} {t t' : ModuleTranslator} {ps : List Payload}
    (h : Run debug t ps t') (hp : ∀ p ∈ ps, defines p = false) (hi : AllImported t.module) :
    AllImported t'.module := by
  induction h with
  | nil t => exact hi
  | cons types head _ ih =>
    exact ih (fun p hmem => hp p (List.mem_cons_of_mem _ hmem))
      (translateSection_allImported head (hp _ List.mem_cons_self) hi)

/-- Where there are no more imports, the imported entities stay where they are. -/
theorem AllImported.extends {t t' : ModuleTranslator} {c : Contribution}
    (hi : AllImported t.module) (h : Extends t c t') (hc : c.imports = []) :
    Imported t'.module := by
  obtain ⟨new, hnew, hdecl⟩ := h.imports
  obtain ⟨h₁, h₂, h₃, h₄, h₅, h₆, h₇, h₈⟩ := hi
  obtain ⟨ts, hts, -⟩ := h.tables
  obtain ⟨ms, hms, -⟩ := h.memories
  obtain ⟨gs, hgs, -⟩ := h.globals
  have hlen := congrArg List.length h.flags.signatures
  simp only [List.length_map, List.length_append] at hlen
  obtain ⟨c₁, c₂, c₃, c₄⟩ := h.counts
  rw [hc] at hdecl c₁ c₂ c₃ c₄
  cases hdecl
  simp only [List.countP_nil, Nat.add_zero] at c₁ c₂ c₃ c₄
  rw [List.append_nil] at hnew
  refine ⟨?_, ?_, ?_, ?_, ?_, ?_, ?_, ?_⟩
  · rw [hnew, h₁, c₁, h₅]
  · rw [hnew, h₂, hts, c₂, h₆, List.take_left]
  · rw [hnew, h₃, hms, c₃, h₇, List.take_left]
  · rw [hnew, h₄, hgs, c₄, h₈, List.take_left]
  · rw [c₁, h₅]
    omega
  · simp [hts, c₂, h₆]
  · simp [hms, c₃, h₇]
  · simp [hgs, c₄, h₈]

/-! ## The order of sections -/

theorem concat_imports_eq_nil {α : Type} {f : α → Contribution} : ∀ {xs : List α},
    (∀ x ∈ xs, (f x).imports = []) → (Contribution.concat f xs).imports = []
  | [], _ => rfl
  | x :: xs, h => by
    rw [Contribution.concat, Contribution.imports_append, h x List.mem_cons_self,
      concat_imports_eq_nil fun y hy => h y (List.mem_cons_of_mem _ hy), List.append_nil]

theorem imports_eq_nil_of_order {p : Payload} (h : p.order ≠ some 2) :
    p.contribution.imports = [] := by
  cases p with
  | importSection imports => exact absurd rfl h
  | functionSection | tableSection | memorySection | globalSection | exportSection
    | elementSection => exact concat_imports_eq_nil fun _ _ => rfl
  | _ => rfl

/-- Imports come before the entities that the module defines. -/
theorem ordered_split : ∀ {ps : List Payload}, (ps.filterMap Payload.order).Pairwise (· < ·) →
    ∃ pre post, ps = pre ++ post ∧ (∀ p ∈ pre, defines p = false)
      ∧ ∀ p ∈ post, p.contribution.imports = []
  | [], _ => ⟨[], [], rfl, by simp, by simp⟩
  | p :: ps, h => by
    by_cases hp : defines p = true
    · obtain ⟨k, hk, hge⟩ : ∃ k, p.order = some k ∧ 3 ≤ k := by
        cases p <;> first
          | exact ⟨_, rfl, by decide⟩
          | cases hp
      refine ⟨[], p :: ps, rfl, by simp, fun q hq => imports_eq_nil_of_order fun h₂ => ?_⟩
      rcases List.mem_cons.1 hq with rfl | hq
      · rw [hk, Option.some_inj] at h₂
        omega
      · rw [List.filterMap_cons, hk, List.pairwise_cons] at h
        have := h.1 2 (List.mem_filterMap.2 ⟨q, hq, h₂⟩)
        omega
    · have hps : (ps.filterMap Payload.order).Pairwise (· < ·) := by
        rw [List.filterMap_cons] at h
        cases hk : p.order <;> rw [hk] at h
        · exact h
        · exact (List.pairwise_cons.1 h).2
      obtain ⟨pre, post, rfl, hpre, hpost⟩ := ordered_split hps
      refine ⟨p :: pre, post, rfl, fun q hq => ?_, hpost⟩
      rcases List.mem_cons.1 hq with rfl | hq
      · simpa using hp
      · exact hpre q hq

theorem concat_append {α : Type} (f : α → Contribution) : ∀ xs ys : List α,
    Contribution.concat f (xs ++ ys) = Contribution.concat f xs ++ Contribution.concat f ys
  | [], ys => by
    show _ = Contribution.mk _ _ _ _ _ _ _
    simp [Contribution.concat]
  | x :: xs, ys => by
    rw [List.cons_append, Contribution.concat, concat_append f xs ys, Contribution.concat]
    show Contribution.mk _ _ _ _ _ _ _ = Contribution.mk _ _ _ _ _ _ _
    simp [Nat.add_assoc]

theorem concat_import_signatures : ∀ imports : List Wasmparser.Import,
    (Contribution.concat Wasmparser.Import.contribution imports).signatures
      = imports.filterMap Wasmparser.Import.funcType?
  | [] => rfl
  | i :: imports => by
    rw [Contribution.concat, Contribution.signatures_append, concat_import_signatures imports]
    unfold Wasmparser.Import.contribution
    cases hty : i.ty <;> simp [Wasmparser.Import.funcType?, hty]

theorem concat_import_imports : ∀ imports : List Wasmparser.Import,
    (Contribution.concat Wasmparser.Import.contribution imports).imports = imports
  | [] => rfl
  | i :: imports => by
    rw [Contribution.concat, Contribution.imports_append, concat_import_imports imports]
    unfold Wasmparser.Import.contribution
    cases hty : i.ty <;> rfl

theorem signatures_of_not_defines {p : Payload} (h : defines p = false) :
    p.contribution.signatures = p.contribution.imports.filterMap Wasmparser.Import.funcType? := by
  cases p with
  | importSection imports =>
    rw [Payload.contribution, concat_import_signatures, concat_import_imports]
  | functionSection | tableSection | memorySection | globalSection => cases h
  | exportSection | elementSection =>
    rw [Payload.contribution, concat_escaped]
    rfl
  | _ => rfl

/-- The first functions of a module are those that it imports. -/
theorem declared_signatures {ps : List Payload}
    (h : (ps.filterMap Payload.order).Pairwise (· < ·)) :
    (declared ps).imports.filterMap Wasmparser.Import.funcType? <+: (declared ps).signatures := by
  obtain ⟨pre, post, rfl, hpre, hpost⟩ := ordered_split h
  have himports : (Contribution.concat Payload.contribution post).imports = [] :=
    concat_imports_eq_nil hpost
  have hsig : ∀ pre : List Payload, (∀ p ∈ pre, defines p = false) →
      (Contribution.concat Payload.contribution pre).signatures
        = (Contribution.concat Payload.contribution pre).imports.filterMap
            Wasmparser.Import.funcType? := by
    intro pre hpre
    induction pre with
    | nil => rfl
    | cons p pre ih =>
      rw [Contribution.concat, Contribution.signatures_append, Contribution.imports_append,
        List.filterMap_append, signatures_of_not_defines (hpre p List.mem_cons_self),
        ih fun q hq => hpre q (List.mem_cons_of_mem _ hq)]
  unfold declared
  rw [concat_append, Contribution.imports_append, Contribution.signatures_append, himports,
    List.append_nil, hsig pre hpre]
  exact List.prefix_append _ _

/-! ## Flagged functions -/

theorem mem_concat_escaped {α : Type} {f : α → Contribution} {n : ℕ} : ∀ {xs : List α},
    n ∈ (Contribution.concat f xs).escaped ↔ ∃ x ∈ xs, n ∈ (f x).escaped
  | [] => by simp [Contribution.concat]
  | x :: xs => by
    rw [Contribution.concat, Contribution.escaped_append, List.mem_append, mem_concat_escaped]
    simp

theorem concat_import_escaped (imports : List Wasmparser.Import) :
    (Contribution.concat Wasmparser.Import.contribution imports).escaped = [] := by
  refine List.eq_nil_iff_forall_not_mem.2 fun n hn => ?_
  obtain ⟨i, -, hi⟩ := mem_concat_escaped.1 hn
  unfold Wasmparser.Import.contribution at hi
  cases hty : i.ty <;> simp [hty] at hi

theorem mem_contribution_escaped {p : Payload} {f : ℕ} :
    f ∈ p.contribution.escaped ↔ f ∈ p.exportedFuncs ∨ f ∈ p.refFuncs := by
  cases p with
  | importSection imports =>
    rw [Payload.contribution, concat_import_escaped]
    simp [Payload.exportedFuncs, Payload.refFuncs]
  | functionSection | tableSection | memorySection | globalSection | exportSection
    | elementSection =>
    rw [Payload.contribution, mem_concat_escaped]
    simp [Payload.exportedFuncs, Payload.refFuncs]
  | _ => simp [Payload.contribution, Payload.exportedFuncs, Payload.refFuncs]

theorem Numbered.le_length {m : TranslatedModule} (h : Numbered m) :
    m.numEscapedFunctions ≤ m.functions.length := by
  choose f hf using h.onto
  have hcard : (Finset.range m.numEscapedFunctions).attach.card
      ≤ (Finset.range m.functions.length).card := by
    refine Finset.card_le_card_of_injOn (fun n => f n.1 (Finset.mem_range.1 n.2)) ?_ ?_
    · intro n _
      obtain ⟨d, hd, -, -⟩ := hf n.1 (Finset.mem_range.1 n.2)
      exact Finset.mem_coe.2 (Finset.mem_range.2 (List.getElem?_eq_some_iff.1 hd).1)
    · intro n _ k _ heq
      obtain ⟨d, hd, -, hdn⟩ := hf n.1 (Finset.mem_range.1 n.2)
      obtain ⟨e, he, -, hek⟩ := hf k.1 (Finset.mem_range.1 k.2)
      -- The two numbers are the number of one function.
      rw [show f n.1 _ = f k.1 _ from heq, he, Option.some_inj] at hd
      exact Subtype.ext (by rw [← hdn, ← hek, hd])
  simpa using hcard

/-! ## Translated modules -/

/-- A module that was translated from a valid binary. -/
structure Translated (ps : List Payload) (t : ModuleTranslator) : Prop where
  valid : ValidModule ps
  imported : Imported t.module
  numbered : Numbered t.module
  initialized : Initialized t.module
  escaping : ∀ f, Escaping t.module f ↔ ∃ p ∈ ps, f ∈ p.exportedFuncs ∨ f ∈ p.refFuncs
  signatures : t.module.functions.map FunctionDesc.signature = (declared ps).signatures
  tables : t.module.tables.length = (declared ps).tables
  memories : t.module.memories.length = (declared ps).memories
  globals : t.module.globals.length = (declared ps).globals
  imports : List.Forall₂ Declares (declared ps).imports t.module.imports
  counts : Counts {} (declared ps).imports t.module
  bodies : t.functionBodies = (declared ps).bodies

theorem Run.translated {debug : Bool} {id : ℕ} {ps : List Payload} {t : ModuleTranslator}
    (hv : ValidModule ps) (h : Run debug (.new id) ps t) : Translated ps t := by
  have hext := h.extends
  have hnew : Numbered (new id).module := ⟨by simp [new], by simp [new], by simp [new]⟩
  refine ⟨hv, ?_, hext.flags.numbered hnew, hext.initialized ⟨rfl, rfl⟩, fun f => ?_,
    hext.flags.signatures, ?_, ?_, ?_, ?_, hext.counts, hext.bodies⟩
  · obtain ⟨pre, post, rfl, hpre, hpost⟩ := ordered_split hv.ordered
    obtain ⟨t₁, h₁, h₂⟩ := h.of_append
    have hall : AllImported (new id).module := ⟨rfl, rfl, rfl, rfl, rfl, rfl, rfl, rfl⟩
    exact (h₁.allImported hpre hall).extends h₂.extends (concat_imports_eq_nil hpost)
  · rw [hext.flags.escaping, mem_concat_escaped]
    simp only [Escaping, new, List.getElem?_nil, mem_contribution_escaped]
    simp
  · exact hext.tables.length.trans (Nat.zero_add _)
  · exact hext.memories.length.trans (Nat.zero_add _)
  · exact hext.globals.length.trans (Nat.zero_add _)
  · obtain ⟨new, hnew, hdecl⟩ := hext.imports
    rw [hnew]
    exact hdecl

theorem translate_translated {σ : Type} {V : Validator σ} {debug : Bool} {ps : List Payload}
    {v v' : σ} {t : ModuleTranslator} {types : ModuleTypes} (hv : ValidModule ps)
    (h : translate V debug v (ps.map .ok) = .ok (.ok (t, types), v')) : Translated ps t :=
  (translate_run h).translated hv

namespace Translated

variable {ps : List Payload} {t : ModuleTranslator}

theorem functions_length (h : Translated ps t) :
    t.module.functions.length = (declared ps).signatures.length := by
  rw [← h.signatures, List.length_map]

/-- Each function that is not imported has a body. -/
theorem bodies_length (h : Translated ps t) :
    t.module.numImportedFunctions + t.functionBodies.length = t.module.functions.length := by
  have hc := h.counts.functions
  simp only [Nat.zero_add] at hc
  rw [hc, h.bodies, h.valid.bodies, h.functions_length]

theorem withinLimits (h : Translated ps t) : t.module.WithinLimits where
  escaped := h.numbered.le_length.trans (h.functions_length ▸ h.valid.functions_le)
  functions := h.functions_length ▸ h.valid.functions_le
  tables := h.tables ▸ h.valid.tables_le
  memories := h.memories ▸ h.valid.memories_le
  globals := h.globals ▸ h.valid.globals_le
  importedFunctions := h.imported.functions_le
  importedTables := h.imported.tables_le
  importedMemories := h.imported.memories_le
  importedGlobals := h.imported.globals_le

end Translated

/-- A validator that accepts everything. -/
def permissiveValidator : Validator Unit where
  new := ()
  id _ := 0
  types _ := some ⟨0, [0], fun _ => 0, fun _ => [0],
    fun _ => ⟨true, none, ⟨.func ⟨[], []⟩, false⟩⟩⟩
  validate _ v := (.ok (), v)
  reset v := v

end ModuleTranslator

end K23VM
