import K23VM.Runtime.VMOffsets
import Mathlib.Tactic

/-!
# The arrays of a vmctx

The arrays follow each other without gaps, `forModule_laid`, so that their elements are disjoint and in
the order in which the layout lists them.  They are aligned to eight bytes; globals need sixteen, and
have them exactly where the number of imported functions is odd, `elements_aligned_iff`.
-/

namespace K23VM

@[simp] theorem VMFuncRef.layout_eq : VMFuncRef.layout = ⟨32, 8⟩ := rfl
@[simp] theorem VMFunctionImport.layout_eq : VMFunctionImport.layout = ⟨24, 8⟩ := rfl
@[simp] theorem VMTableImport.layout_eq : VMTableImport.layout = ⟨16, 8⟩ := rfl
@[simp] theorem VMMemoryImport.layout_eq : VMMemoryImport.layout = ⟨16, 8⟩ := rfl
@[simp] theorem VMGlobalImport.layout_eq : VMGlobalImport.layout = ⟨16, 8⟩ := rfl
@[simp] theorem VMTableDefinition.layout_eq : VMTableDefinition.layout = ⟨16, 8⟩ := rfl
@[simp] theorem VMMemoryDefinition.layout_eq : VMMemoryDefinition.layout = ⟨16, 8⟩ := rfl
@[simp] theorem VMGlobalDefinition.layout_eq : VMGlobalDefinition.layout = ⟨16, 16⟩ := rfl

namespace VMOffsets

/-- The arrays, in their order. -/
inductive ArrayKind where
  | funcRefs | importedFunctions | importedTables | importedMemories | importedGlobals | tables
  | memories | globals
  deriving DecidableEq, Repr

namespace ArrayKind

/-- The place of an array in a vmctx. -/
def order : ArrayKind → ℕ
  | .funcRefs => 0
  | .importedFunctions => 1
  | .importedTables => 2
  | .importedMemories => 3
  | .importedGlobals => 4
  | .tables => 5
  | .memories => 6
  | .globals => 7

/-- The layout of the elements. -/
def layout : ArrayKind → Layout
  | .funcRefs => VMFuncRef.layout
  | .importedFunctions => VMFunctionImport.layout
  | .importedTables => VMTableImport.layout
  | .importedMemories => VMMemoryImport.layout
  | .importedGlobals => VMGlobalImport.layout
  | .tables => VMTableDefinition.layout
  | .memories => VMMemoryDefinition.layout
  | .globals => VMGlobalDefinition.layout

end ArrayKind

variable {off : VMOffsets} {m : TranslatedModule}

/-- The offset of an array. -/
def arrayBegin (off : VMOffsets) : ArrayKind → ℕ
  | .funcRefs => off.funcRefs
  | .importedFunctions => off.importedFunctions
  | .importedTables => off.importedTables
  | .importedMemories => off.importedMemories
  | .importedGlobals => off.importedGlobals
  | .tables => off.tables
  | .memories => off.memories
  | .globals => off.globals

/-- The number of elements of an array. -/
def count (off : VMOffsets) : ArrayKind → ℕ
  | .funcRefs => off.numEscapedFuncs
  | .importedFunctions => off.numImportedFuncs
  | .importedTables => off.numImportedTables
  | .importedMemories => off.numImportedMemories
  | .importedGlobals => off.numImportedGlobals
  | .tables => off.numDefinedTables
  | .memories => off.numDefinedMemories
  | .globals => off.numDefinedGlobals

/-- The accessor for the elements of an array. -/
def elementOffset (off : VMOffsets) : ArrayKind → ℕ → Except Fault ℕ
  | .funcRefs => off.vmctxVmfuncRef
  | .importedFunctions => off.vmctxVmfunctionImport
  | .importedTables => off.vmctxVmtableImport
  | .importedMemories => off.vmctxVmmemoryImport
  | .importedGlobals => off.vmctxVmglobalImport
  | .tables => off.vmctxVmtableDefinition
  | .memories => off.vmctxVmmemoryDefinition
  | .globals => off.vmctxVmglobalDefinition

/-- The arrays follow the static part and each other. -/
structure Laid (off : VMOffsets) : Prop where
  static_ : off.static_ = ⟨8⟩
  funcRefs : off.funcRefs = 56
  importedFunctions : off.importedFunctions = off.funcRefs + 32 * off.numEscapedFuncs
  importedTables : off.importedTables = off.importedFunctions + 24 * off.numImportedFuncs
  importedMemories : off.importedMemories = off.importedTables + 16 * off.numImportedTables
  importedGlobals : off.importedGlobals = off.importedMemories + 16 * off.numImportedMemories
  tables : off.tables = off.importedGlobals + 16 * off.numImportedGlobals
  memories : off.memories = off.tables + 16 * off.numDefinedTables
  globals : off.globals = off.memories + 16 * off.numDefinedMemories
  size : off.size = off.globals + 16 * off.numDefinedGlobals
  size_lt : off.size < 2 ^ 32

/-- The numbers of elements are those of the module. -/
structure CountsOf (off : VMOffsets) (m : TranslatedModule) : Prop where
  numEscapedFuncs : off.numEscapedFuncs = m.numEscapedFunctions
  numImportedFuncs : off.numImportedFuncs = m.numImportedFunctions
  numImportedTables : off.numImportedTables = m.numImportedTables
  numImportedMemories : off.numImportedMemories = m.numImportedMemories
  numImportedGlobals : off.numImportedGlobals = m.numImportedGlobals
  numDefinedTables : off.numDefinedTables = m.tables.length - m.numImportedTables
  numDefinedMemories : off.numDefinedMemories = m.memories.length - m.numImportedMemories
  numDefinedGlobals : off.numDefinedGlobals = m.globals.length - m.numImportedGlobals

theorem memberEnd_eq_ok {offset count e : ℕ} {layout : Layout}
    (h : memberEnd offset layout count = .ok e) :
    e = offset + layout.size * count ∧ e < 2 ^ 32 := by
  unfold memberEnd at h
  obtain ⟨n, hn, h⟩ := bind_eq_ok.1 h
  obtain ⟨-, rfl⟩ := mulU32OrPanic_eq_ok.1 hn
  obtain ⟨hlt, rfl⟩ := addU32OrPanic_eq_ok.1 h
  exact ⟨rfl, hlt⟩

theorem forModule_laid (h : forModule 8 m = .ok off) : Laid off ∧ CountsOf off m := by
  unfold forModule TranslatedModule.numDefinedTables TranslatedModule.numDefinedMemories
    TranslatedModule.numDefinedGlobals TranslatedModule.numTables TranslatedModule.numMemories
    TranslatedModule.numGlobals at h
  obtain ⟨t, ht, h⟩ := bind_eq_ok.1 h
  obtain ⟨mem, hmem, h⟩ := bind_eq_ok.1 h
  obtain ⟨g, hg, h⟩ := bind_eq_ok.1 h
  obtain ⟨tl, htl, ht⟩ := bind_eq_ok.1 ht
  obtain ⟨ml, hml, hmem⟩ := bind_eq_ok.1 hmem
  obtain ⟨gl, hgl, hg⟩ := bind_eq_ok.1 hg
  obtain ⟨-, rfl⟩ := toU32_eq_ok.1 htl
  obtain ⟨-, rfl⟩ := toU32_eq_ok.1 hml
  obtain ⟨-, rfl⟩ := toU32_eq_ok.1 hgl
  obtain ⟨-, rfl⟩ := subOrPanic_eq_ok.1 ht
  obtain ⟨-, rfl⟩ := subOrPanic_eq_ok.1 hmem
  obtain ⟨-, rfl⟩ := subOrPanic_eq_ok.1 hg
  obtain ⟨o₁, h₁, h⟩ := bind_eq_ok.1 h
  obtain ⟨o₂, h₂, h⟩ := bind_eq_ok.1 h
  obtain ⟨o₃, h₃, h⟩ := bind_eq_ok.1 h
  obtain ⟨o₄, h₄, h⟩ := bind_eq_ok.1 h
  obtain ⟨o₅, h₅, h⟩ := bind_eq_ok.1 h
  obtain ⟨o₆, h₆, h⟩ := bind_eq_ok.1 h
  obtain ⟨o₇, h₇, h⟩ := bind_eq_ok.1 h
  obtain ⟨o₈, h₈, h⟩ := bind_eq_ok.1 h
  obtain rfl := Except.ok.inj h
  exact ⟨⟨rfl, rfl, (memberEnd_eq_ok h₁).1, (memberEnd_eq_ok h₂).1, (memberEnd_eq_ok h₃).1,
    (memberEnd_eq_ok h₄).1, (memberEnd_eq_ok h₅).1, (memberEnd_eq_ok h₆).1, (memberEnd_eq_ok h₇).1,
    (memberEnd_eq_ok h₈).1, (memberEnd_eq_ok h₈).2⟩, ⟨rfl, rfl, rfl, rfl, rfl, rfl, rfl, rfl⟩⟩

theorem memberEnd_ok (offset count : ℕ) {layout : Layout} (size : ℕ) (hsize : layout.size = size)
    (h : offset + size * count < 10 ^ 8) :
    ∃ e, memberEnd offset layout count = .ok e ∧ e = offset + size * count := by
  subst hsize
  unfold memberEnd
  exact ⟨_, bind_eq_ok.2 ⟨_, mulU32OrPanic_eq_ok.2 ⟨by omega, rfl⟩,
    addU32OrPanic_eq_ok.2 ⟨by omega, rfl⟩⟩, rfl⟩

/-- The offsets of a module within the limits fit into an `i32`. -/
theorem forModule_ok (h : m.WithinLimits) :
    ∃ off, forModule 8 m = .ok off ∧ off.size < 2 ^ 31 := by
  obtain ⟨he, hf, ht, hm, hg, hif, hit, him, hig⟩ := h
  unfold TranslatedModule.MAX_WASM_FUNCTIONS at he hf
  unfold TranslatedModule.MAX_WASM_TABLES at ht
  unfold TranslatedModule.MAX_WASM_MEMORIES at hm
  unfold TranslatedModule.MAX_WASM_GLOBALS at hg
  have hnt : m.numDefinedTables = .ok (m.tables.length - m.numImportedTables) :=
    bind_eq_ok.2 ⟨_, toU32_eq_ok.2 ⟨by omega, rfl⟩, subOrPanic_eq_ok.2 ⟨hit, rfl⟩⟩
  have hnm : m.numDefinedMemories = .ok (m.memories.length - m.numImportedMemories) :=
    bind_eq_ok.2 ⟨_, toU32_eq_ok.2 ⟨by omega, rfl⟩, subOrPanic_eq_ok.2 ⟨him, rfl⟩⟩
  have hng : m.numDefinedGlobals = .ok (m.globals.length - m.numImportedGlobals) :=
    bind_eq_ok.2 ⟨_, toU32_eq_ok.2 ⟨by omega, rfl⟩, subOrPanic_eq_ok.2 ⟨hig, rfl⟩⟩
  have hs : (⟨8⟩ : StaticVMOffsets).size = 56 := rfl
  -- The whole vmctx takes less than a hundred million bytes.
  obtain ⟨o₁, h₁, e₁⟩ := memberEnd_ok (⟨8⟩ : StaticVMOffsets).size m.numEscapedFunctions 32
    (congrArg Layout.size VMFuncRef.layout_eq) (by omega)
  obtain ⟨o₂, h₂, e₂⟩ := memberEnd_ok o₁ m.numImportedFunctions 24
    (congrArg Layout.size VMFunctionImport.layout_eq) (by omega)
  obtain ⟨o₃, h₃, e₃⟩ := memberEnd_ok o₂ m.numImportedTables 16
    (congrArg Layout.size VMTableImport.layout_eq) (by omega)
  obtain ⟨o₄, h₄, e₄⟩ := memberEnd_ok o₃ m.numImportedMemories 16
    (congrArg Layout.size VMMemoryImport.layout_eq) (by omega)
  obtain ⟨o₅, h₅, e₅⟩ := memberEnd_ok o₄ m.numImportedGlobals 16
    (congrArg Layout.size VMGlobalImport.layout_eq) (by omega)
  obtain ⟨o₆, h₆, e₆⟩ := memberEnd_ok o₅ (m.tables.length - m.numImportedTables) 16
    (congrArg Layout.size VMTableDefinition.layout_eq) (by omega)
  obtain ⟨o₇, h₇, e₇⟩ := memberEnd_ok o₆ (m.memories.length - m.numImportedMemories) 16
    (congrArg Layout.size VMMemoryDefinition.layout_eq) (by omega)
  obtain ⟨o₈, h₈, e₈⟩ := memberEnd_ok o₇ (m.globals.length - m.numImportedGlobals) 16
    (congrArg Layout.size VMGlobalDefinition.layout_eq) (by omega)
  have hrun : ∃ off, forModule 8 m = .ok off ∧ off.size = o₈ := by
    unfold forModule
    rw [hnt, hnm, hng]
    simp only [bind, Except.bind, h₁, h₂, h₃, h₄, h₅, h₆, h₇, h₈]
    exact ⟨_, rfl, rfl⟩
  obtain ⟨off, hoff, hsize⟩ := hrun
  exact ⟨off, hoff, by omega⟩

theorem element_eq_ok {b count i o : ℕ} {layout : Layout} {num : String} :
    element b layout num count i = .ok o ↔
      i < count ∧ i * layout.size < 2 ^ 32 ∧ b + i * layout.size < 2 ^ 32
        ∧ o = b + i * layout.size := by
  unfold element
  by_cases hi : i < count
  · simp only [hi, decide_true, assertThat_true, true_and]
    constructor
    · intro h
      obtain ⟨_, -, h⟩ := bind_eq_ok.1 h
      obtain ⟨n, hn, h⟩ := bind_eq_ok.1 h
      obtain ⟨hmul, rfl⟩ := mulU32OrPanic_eq_ok.1 hn
      obtain ⟨hadd, rfl⟩ := addU32OrPanic_eq_ok.1 h
      exact ⟨hmul, hadd, rfl⟩
    · rintro ⟨hmul, hadd, rfl⟩
      exact bind_eq_ok.2 ⟨(), rfl, bind_eq_ok.2 ⟨_, mulU32OrPanic_eq_ok.2 ⟨hmul, rfl⟩,
        addU32OrPanic_eq_ok.2 ⟨hadd, rfl⟩⟩⟩
  · simp only [hi, decide_false, assertThat_false, false_and, iff_false]
    intro h
    cases h

theorem elementOffset_eq {k : ArrayKind} {i o : ℕ} (h : off.elementOffset k i = .ok o) :
    i < off.count k ∧ o = off.arrayBegin k + i * k.layout.size := by
  cases k with
  | funcRefs =>
    obtain ⟨_, -, h⟩ := bind_eq_ok.1 h
    obtain ⟨hi, -, -, rfl⟩ := element_eq_ok.1 h
    exact ⟨hi, rfl⟩
  | _ =>
    obtain ⟨hi, -, -, rfl⟩ := element_eq_ok.1 h
    exact ⟨hi, rfl⟩

/-- An array ends at or before the end of the vmctx. -/
theorem Laid.arrayEnd_le (h : Laid off) (k : ArrayKind) :
    off.arrayBegin k + off.count k * k.layout.size ≤ off.size := by
  obtain ⟨-, h₀, h₁, h₂, h₃, h₄, h₅, h₆, h₇, h₈, -⟩ := h
  cases k <;> simp [arrayBegin, count, ArrayKind.layout] <;> omega

/-- An array ends at or before the arrays behind it. -/
theorem Laid.arrayEnd_le_of_order (h : Laid off) {k l : ArrayKind} (hkl : k.order < l.order) :
    off.arrayBegin k + off.count k * k.layout.size ≤ off.arrayBegin l := by
  obtain ⟨-, h₀, h₁, h₂, h₃, h₄, h₅, h₆, h₇, h₈, -⟩ := h
  cases k <;> cases l <;> simp [ArrayKind.order] at hkl <;>
    simp [arrayBegin, count, ArrayKind.layout] <;> omega

theorem Laid.le_arrayBegin (h : Laid off) (k : ArrayKind) : 56 ≤ off.arrayBegin k := by
  obtain ⟨-, h₀, h₁, h₂, h₃, h₄, h₅, h₆, h₇, -, -⟩ := h
  cases k <;> simp [arrayBegin] <;> omega

/-- An element lies inside its array. -/
theorem elementEnd_le {k : ArrayKind} {i : ℕ} (hi : i < off.count k) :
    off.arrayBegin k + i * k.layout.size + k.layout.size
      ≤ off.arrayBegin k + off.count k * k.layout.size := by
  have : (i + 1) * k.layout.size ≤ off.count k * k.layout.size := Nat.mul_le_mul_right _ hi
  rw [Nat.add_mul] at this
  omega

theorem ArrayKind.size_pos (k : ArrayKind) : 0 < k.layout.size := by
  cases k <;> simp [layout]

/-- The accessors have a result for each index of their array. -/
theorem Laid.elementOffset_ok (h : Laid off) {k : ArrayKind} {i : ℕ} (hi : i < off.count k) :
    off.elementOffset k i = .ok (off.arrayBegin k + i * k.layout.size) := by
  have hend := (elementEnd_le hi).trans (h.arrayEnd_le k)
  have hlt := h.size_lt
  have hpos := k.size_pos
  have hok : ∀ num, element (off.arrayBegin k) k.layout num (off.count k) i
      = .ok (off.arrayBegin k + i * k.layout.size) := fun num =>
    element_eq_ok.2 ⟨hi, by omega, by omega, rfl⟩
  cases k with
  | funcRefs =>
    refine bind_eq_ok.2 ⟨(), ?_, hok _⟩
    have hne : i ≠ FUNC_REF_RESERVED := by
      simp only [ArrayKind.layout, VMFuncRef.layout_eq] at hend
      unfold FUNC_REF_RESERVED
      omega
    simp [hne]
  | _ => exact hok _

/-! ## Alignment -/

/-- The elements of a vmctx at `base` are aligned. -/
def ElementsAligned (off : VMOffsets) (base : ℕ) : Prop :=
  ∀ k i o, off.elementOffset k i = .ok o → k.layout.align ∣ base + o

/-- Every array but the one of the globals is aligned. -/
theorem Laid.aligned_of_ne_globals (h : Laid off) {base : ℕ} (hbase : 16 ∣ base) {k : ArrayKind}
    (hk : k ≠ .globals) {i o : ℕ} (ho : off.elementOffset k i = .ok o) :
    k.layout.align ∣ base + o := by
  obtain ⟨-, rfl⟩ := elementOffset_eq ho
  obtain ⟨-, h₀, h₁, h₂, h₃, h₄, h₅, h₆, h₇, -, -⟩ := h
  cases k <;> simp [arrayBegin, ArrayKind.layout] at hk ⊢ <;> omega

theorem Laid.globals_aligned_iff (h : Laid off) {base : ℕ} (hbase : 16 ∣ base) (i : ℕ) :
    16 ∣ base + (off.globals + i * 16) ↔ off.numImportedFuncs % 2 = 1 := by
  obtain ⟨-, h₀, h₁, h₂, h₃, h₄, h₅, h₆, h₇, -, -⟩ := h
  omega

/-- The elements of a vmctx are aligned exactly where the module defines no globals or imports an odd
number of functions. -/
theorem elements_aligned_iff (h : forModule 8 m = .ok off) {base : ℕ} (hbase : 16 ∣ base) :
    ElementsAligned off base ↔
      m.globals.length ≤ m.numImportedGlobals ∨ m.numImportedFunctions % 2 = 1 := by
  obtain ⟨hl, hc⟩ := forModule_laid h
  rw [← hc.numImportedFuncs]
  constructor
  · intro hal
    by_contra hno
    push Not at hno
    have hpos : 0 < off.count .globals := by
      show 0 < off.numDefinedGlobals
      rw [hc.numDefinedGlobals]
      omega
    have h16 := hal .globals 0 _ (hl.elementOffset_ok hpos)
    exact hno.2 ((hl.globals_aligned_iff hbase 0).1 h16)
  · rintro hcond k i o ho
    by_cases hk : k = .globals
    · subst hk
      obtain ⟨hi, rfl⟩ := elementOffset_eq ho
      have hlt : i < m.globals.length - m.numImportedGlobals := hc.numDefinedGlobals ▸ hi
      exact (hl.globals_aligned_iff hbase i).2 (hcond.resolve_left (by omega))
    · exact hl.aligned_of_ne_globals hbase hk ho

/-- A module that defines a global. -/
def globalModule : TranslatedModule where
  globals := [⟨.i32, false, false⟩]
  globalInitializers := [⟨[.i32Const 0]⟩]

/-- A module that imports a function and defines a global. -/
def importingModule : TranslatedModule where
  types := [0]
  functions := [⟨0, FUNC_REF_RESERVED⟩]
  imports := [⟨"env", "f", .function (.module 0)⟩]
  numImportedFunctions := 1
  globals := [⟨.i32, false, false⟩]
  globalInitializers := [⟨[.i32Const 0]⟩]

/-- A global of a module without imports is at an offset of eight modulo sixteen. -/
theorem elements_not_aligned_global :
    ∃ off, forModule 8 globalModule = .ok off ∧ off.vmctxVmglobalDefinition 0 = .ok 56
      ∧ 16 ∣ 4096 ∧ ¬ ElementsAligned off 4096 := by
  refine ⟨_, rfl, rfl, by decide, fun h => ?_⟩
  exact absurd (h .globals 0 56 rfl) (by decide)

/-- With an imported function it is aligned. -/
theorem elements_aligned_importing :
    ∃ off, forModule 8 importingModule = .ok off ∧ 16 ∣ 4096 ∧ ElementsAligned off 4096 :=
  ⟨_, rfl, by decide, (elements_aligned_iff (m := importingModule) rfl (by decide)).2 (.inr rfl)⟩

end VMOffsets

end K23VM
