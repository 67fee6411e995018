import K23VM.Lib.MapM
import K23VM.Proofs.TranslatedModule
import K23VM.Proofs.VMOffsets
import K23VM.Runtime.Instance

/-!
# What is written into a vmctx

A vmctx has a slot for each of its static words and each element of its arrays.  The slots are disjoint
and in the order of the layout, `Laid.before`.  Whatever `initialize_vmctx` writes is in a slot of its
kind, `emits_initializeVmctx`; where it returns, it has written each element of the arrays once,
`initializeVmctx_slots`, so that each record is still there afterwards, `Filled.holds`.
-/

namespace K23VM

namespace VMOffsets

/-! ## Slots -/

/-- The words that every vmctx has, in their order. -/
inductive Word where
  | magic | builtinFunctions | typeIds | stackLimit | lastWasmExitFp | lastWasmExitPc
  | lastWasmEntryFp
  deriving DecidableEq, Repr

/-- The place of a word in a vmctx. -/
def Word.order : Word → ℕ
  | .magic => 0
  | .builtinFunctions => 1
  | .typeIds => 2
  | .stackLimit => 3
  | .lastWasmExitFp => 4
  | .lastWasmExitPc => 5
  | .lastWasmEntryFp => 6

/-- The accessor for a word. -/
def wordOffset (off : StaticVMOffsets) : Word → ℕ
  | .magic => off.vmctxMagic
  | .builtinFunctions => off.vmctxBuiltinFunctions
  | .typeIds => off.vmctxTypeIds
  | .stackLimit => off.vmctxStackLimit
  | .lastWasmExitFp => off.vmctxLastWasmExitFp
  | .lastWasmExitPc => off.vmctxLastWasmExitPc
  | .lastWasmEntryFp => off.vmctxLastWasmEntryFp

/-- The parts of a vmctx. -/
inductive Slot where
  | word (w : Word)
  | element (k : ArrayKind) (i : ℕ)
  deriving DecidableEq, Repr

namespace Slot

/-- The offset of a slot, as its accessor gives it. -/
def offset (off : VMOffsets) : Slot → Except Fault ℕ
  | .word w => .ok (wordOffset off.static_ w)
  | .element k i => off.elementOffset k i

def size : Slot → ℕ
  | .word _ => 8
  | .element k _ => k.layout.size

/-- The slot is there. -/
def Valid (off : VMOffsets) : Slot → Prop
  | .word _ => True
  | .element k i => i < off.count k

/-- The order of the layout. -/
def Before : Slot → Slot → Prop
  | .word v, .word w => v.order < w.order
  | .word _, .element _ _ => True
  | .element _ _, .word _ => False
  | .element k i, .element l j => k.order < l.order ∨ k = l ∧ i < j

theorem before_or_before {s t : Slot} (h : s ≠ t) : Before s t ∨ Before t s := by
  rcases s with v | ⟨k, i⟩ <;> rcases t with w | ⟨l, j⟩
  · have hne : v.order ≠ w.order := fun heq => h (by
      cases v <;> cases w <;> first | rfl | simp [Word.order] at heq)
    exact lt_or_gt_of_ne hne
  · exact .inl trivial
  · exact .inr trivial
  · by_cases hk : k = l
    · subst hk
      have hij : i ≠ j := fun hij => h (by rw [hij])
      rcases lt_or_gt_of_ne hij with hlt | hlt
      · exact .inl (.inr ⟨rfl, hlt⟩)
      · exact .inr (.inr ⟨rfl, hlt⟩)
    · have hne : k.order ≠ l.order := fun heq => hk (by
        cases k <;> cases l <;> first | rfl | simp [ArrayKind.order] at heq)
      rcases lt_or_gt_of_ne hne with hlt | hlt
      · exact .inl (.inl hlt)
      · exact .inr (.inl hlt)

end Slot

variable {off : VMOffsets}

theorem Laid.wordOffset_eq (h : Laid off) (w : Word) : wordOffset off.static_ w = 8 * w.order := by
  rw [h.static_]
  cases w <;> rfl

/-- The accessor of a slot has a result, and the slot lies inside the vmctx. -/
theorem Laid.slot_ok (h : Laid off) {s : Slot} (hs : s.Valid off) :
    ∃ o, s.offset off = .ok o ∧ o + s.size ≤ off.size := by
  cases s with
  | word w =>
    refine ⟨_, rfl, ?_⟩
    have hb := h.le_arrayBegin .globals
    have he := h.arrayEnd_le .globals
    show wordOffset off.static_ w + 8 ≤ off.size
    rw [h.wordOffset_eq]
    cases w <;> simp only [Word.order] <;> omega
  | element k i =>
    exact ⟨_, h.elementOffset_ok hs, (elementEnd_le hs).trans (h.arrayEnd_le k)⟩

/-- Slots are in the order of the layout, and do not overlap. -/
theorem Laid.before (h : Laid off) {s t : Slot} (hst : s.Before t) {o o' : ℕ}
    (ho : s.offset off = .ok o) (ho' : t.offset off = .ok o') : o + s.size ≤ o' := by
  rcases s with v | ⟨k, i⟩ <;> rcases t with w | ⟨l, j⟩
  · obtain rfl := Except.ok.inj ho
    obtain rfl := Except.ok.inj ho'
    rw [h.wordOffset_eq, h.wordOffset_eq]
    have hlt : v.order < w.order := hst
    show 8 * v.order + 8 ≤ 8 * w.order
    omega
  · obtain rfl := Except.ok.inj ho
    obtain ⟨-, rfl⟩ := elementOffset_eq ho'
    have hb := h.le_arrayBegin l
    rw [h.wordOffset_eq]
    show 8 * v.order + 8 ≤ _
    have hv : v.order ≤ 6 := by cases v <;> decide
    omega
  · cases hst
  · obtain ⟨hi, rfl⟩ := elementOffset_eq ho
    obtain ⟨hj, rfl⟩ := elementOffset_eq ho'
    show off.arrayBegin k + i * k.layout.size + k.layout.size ≤ _
    rcases hst with hlt | ⟨rfl, hlt⟩
    · exact (elementEnd_le hi).trans ((h.arrayEnd_le_of_order hlt).trans (Nat.le_add_right _ _))
    · have : (i + 1) * k.layout.size ≤ j * k.layout.size := Nat.mul_le_mul_right _ hlt
      rw [Nat.add_mul] at this
      omega

end VMOffsets

open VMOffsets

/-! ## Writes -/

/-- The array whose elements are records of this kind. -/
def VMRecord.array? : VMRecord → Option ArrayKind
  | .magic _ => none
  | .pointer _ => none
  | .funcRef _ => some .funcRefs
  | .functionImport _ => some .importedFunctions
  | .tableImport _ => some .importedTables
  | .memoryImport _ => some .importedMemories
  | .globalImport _ => some .importedGlobals
  | .tableDefinition _ => some .tables
  | .memoryDefinition _ => some .memories
  | .globalDefinition _ => some .globals

/-- The record is of the kind that belongs into the slot.  The words behind the first three are left as
they are. -/
def VMRecord.Fits (r : VMRecord) : Slot → Prop
  | .word .magic => r = .magic VMCONTEXT_MAGIC
  | .word .builtinFunctions => ∃ p, r = .pointer p
  | .word .typeIds => ∃ p, r = .pointer p
  | .word _ => False
  | .element k _ => r.array? = some k

/-- The write fills in the slot. -/
def VMWrite.Fills (off : VMOffsets) (s : Slot) (w : VMWrite) : Prop :=
  s.offset off = .ok w.offset ∧ w.record.Fits s

theorem VMRecord.Fits.size_le {r : VMRecord} {s : Slot} (h : r.Fits s) : r.layout.size ≤ s.size := by
  rcases s with w | ⟨k, i⟩
  · cases w with
    | magic =>
      obtain rfl := h
      decide
    | builtinFunctions | typeIds =>
      obtain ⟨p, rfl⟩ := h
      exact le_rfl
    | _ => cases h
  · cases r <;> cases h <;> exact le_rfl

/-- The record is at `o` after the writes: it was written there, and nothing overlaps it since. -/
def Holds (log : List VMWrite) (o : ℕ) (r : VMRecord) : Prop :=
  ∃ pre post, log = pre ++ ⟨o, r⟩ :: post
    ∧ ∀ w ∈ post, w.offset + w.record.layout.size ≤ o ∨ o + r.layout.size ≤ w.offset

/-- The writes fill in the slots, each once. -/
structure Filled (off : VMOffsets) (slots : List Slot) (log : List VMWrite) : Prop where
  fills : List.Forall₂ (VMWrite.Fills off) slots log
  nodup : slots.Nodup

theorem Filled.holds {off : VMOffsets} (hl : Laid off) {slots : List Slot} {log : List VMWrite}
    (h : Filled off slots log) {w : VMWrite} (hw : w ∈ log) : Holds log w.offset w.record := by
  obtain ⟨pre, post, rfl⟩ := List.append_of_mem hw
  refine ⟨pre, post, rfl, fun w' hw' => ?_⟩
  obtain ⟨hfills, hnodup⟩ := h
  have hrest := List.forall₂_drop_append _ _ _ hfills
  have hdrop := (List.drop_sublist pre.length slots).nodup hnodup
  obtain ⟨s, spost, hs, hpost, heq⟩ := List.forall₂_cons_right_iff.1 hrest
  obtain ⟨s', hmem, hs'⟩ := forall₂_exists_left hpost hw'
  have hne : s ≠ s' := by
    rintro rfl
    rw [heq] at hdrop
    exact (List.nodup_cons.1 hdrop).1 hmem
  rcases Slot.before_or_before hne with hb | hb
  · have := hl.before hb hs.1 hs'.1
    have := hs.2.size_le
    exact .inr (by omega)
  · have := hl.before hb hs'.1 hs.1
    have := hs'.2.size_le
    exact .inl (by omega)

/-- A computation that writes into slots only, and into the given ones where it returns. -/
structure FillsSlots {α : Type} (off : VMOffsets) (slots : List Slot) (x : Writing α) : Prop where
  emits : x.Emits fun w => ∃ s, w.Fills off s
  ends : ∀ log a, x.Ends log a → List.Forall₂ (VMWrite.Fills off) slots log

namespace FillsSlots

variable {α β σ : Type} {off : VMOffsets} {slots slots' : List Slot}

theorem bind {x : Writing α} {f : α → Writing β} (hx : FillsSlots off slots x)
    (hf : ∀ a, FillsSlots off slots' (f a)) : FillsSlots off (slots ++ slots') (x >>= f) where
  emits := hx.emits.bind fun a => (hf a).emits
  ends log b h := by
    obtain ⟨log₁, log₂, a, h₁, h₂, rfl⟩ := Logged.bind_ends h
    exact List.rel_append (hx.ends _ _ h₁) ((hf a).ends _ _ h₂)

theorem record {s : Slot} {w : VMWrite} (h : w.Fills off s) : FillsSlots off [s] (.record w) where
  emits := Logged.emits_record ⟨s, h⟩
  ends log u hends := by
    obtain rfl := Logged.record_ends hends
    exact .cons h .nil

theorem forEach {g : σ → α → Except Fault (VMWrite × σ)} {slot : α → Slot} {l : List α}
    (h : ∀ a ∈ l, ∀ s w s', g s a = .ok (w, s') → w.Fills off (slot a)) (s : σ) :
    FillsSlots off (l.map slot) (.forEach g s l) where
  emits := Logged.emits_forEach fun a ha s w s' hg => ⟨slot a, h a ha s w s' hg⟩
  ends log s' hends := by
    rw [List.forall₂_map_left_iff]
    refine forall₂_imp_mem (Logged.forEach_ends hends) fun a ha w _ hw => ?_
    obtain ⟨s, s', hg⟩ := hw
    exact h a ha s w s' hg

theorem recordAll {g : α → Except Fault VMWrite} {slot : α → Slot} {l : List α}
    (h : ∀ a ∈ l, ∀ w, g a = .ok w → w.Fills off (slot a)) :
    FillsSlots off (l.map slot) (.recordAll g l) where
  emits := Logged.emits_recordAll fun a ha w hg => ⟨slot a, h a ha w hg⟩
  ends log u hends := by
    rw [List.forall₂_map_left_iff]
    exact forall₂_imp_mem (Logged.recordAll_ends hends) fun a ha w _ hg => h a ha w hg

end FillsSlots

/-! ## Initialization -/

/-- The elements of an array. -/
def elementSlots (k : ArrayKind) (n : ℕ) : List Slot := (List.range n).map (.element k)

/-- The slots that are filled in for a module, in order. -/
def moduleSlots (m : TranslatedModule) : List Slot :=
  [.word .magic] ++ ([.word .builtinFunctions] ++ ([.word .typeIds]
    ++ ((m.functions.filter FunctionDesc.isEscaping).map (fun d => .element .funcRefs d.funcRef)
    ++ (elementSlots .importedFunctions m.numImportedFunctions
    ++ (elementSlots .importedTables m.numImportedTables
    ++ (elementSlots .importedMemories m.numImportedMemories
    ++ (elementSlots .importedGlobals m.numImportedGlobals
    ++ (elementSlots .tables (m.tables.length - m.numImportedTables)
    ++ (elementSlots .memories (m.memories.length - m.numImportedMemories)
    ++ elementSlots .globals m.globalInitializers.length)))))))))

/-- There is a definition for each import. -/
structure Imports.Complete (imports : Imports) (m : TranslatedModule) : Prop where
  functions : imports.functions.length = m.numImportedFunctions
  tables : imports.tables.length = m.numImportedTables
  memories : imports.memories.length = m.numImportedMemories
  globals : imports.globals.length = m.numImportedGlobals

/-- The indices of the entities that a module defines. -/
theorem filterMap_range_sub (k : ℕ) : ∀ n : ℕ,
    (List.range n).filterMap (fun i => if i < k then none else some (i - k)) = List.range (n - k)
  | 0 => by simp
  | n + 1 => by
    rw [List.range_succ, List.filterMap_append, filterMap_range_sub k n]
    by_cases hn : n < k
    · simp [hn, show n - k = 0 by omega, show n + 1 - k = 0 by omega]
    · rw [show n + 1 - k = n - k + 1 by omega, List.range_succ]
      simp [hn]

theorem definedTables_eq (m : TranslatedModule) (n : ℕ) :
    (List.range n).filterMap m.definedTableIndex = List.range (n - m.numImportedTables) := by
  rw [← filterMap_range_sub]
  exact List.filterMap_congr fun i _ => m.definedTableIndex_eq i

theorem definedMemories_eq (m : TranslatedModule) (n : ℕ) :
    (List.range n).filterMap m.definedMemoryIndex = List.range (n - m.numImportedMemories) := by
  rw [← filterMap_range_sub]
  exact List.filterMap_congr fun i _ => m.definedMemoryIndex_eq i

section Initialize

variable {debug : Bool} {builtinFunctions : ℕ} {ev : ConstExprEvaluator} {vmctx : ℕ}
  {tables : List Table} {memories : List InstanceMemory} {module : Module} {imports : Imports}

theorem fills_initializeVmfuncRefs :
    FillsSlots module.offsets ((module.translated.functions.filter FunctionDesc.isEscaping).map
      fun d => .element .funcRefs d.funcRef) (initializeVmfuncRefs debug vmctx module imports) := by
  have hmap : (module.translated.functions.filter FunctionDesc.isEscaping).map
      (fun d => Slot.element .funcRefs d.funcRef)
      = (module.translated.functions.zipIdx.filter (·.1.isEscaping)).map
        fun x => Slot.element .funcRefs x.1.funcRef := by
    conv_lhs => rw [← List.zipIdx_map_fst 0 module.translated.functions]
    rw [List.filter_map, List.map_map]
    rfl
  rw [hmap]
  unfold initializeVmfuncRefs
  refine .recordAll fun a _ w hw => ?_
  obtain ⟨funcRef, -, hw⟩ := bind_eq_ok.1 hw
  obtain ⟨o, ho, hw⟩ := bind_eq_ok.1 hw
  obtain rfl := Except.ok.inj hw
  exact ⟨ho, rfl⟩

theorem fills_copyNonoverlapping {off : VMOffsets} (hl : Laid off) {k : ArrayKind} {n : ℕ}
    {records : List VMRecord} (hn : off.count k = n) (hlen : records.length = n)
    (hk : ∀ r ∈ records, r.array? = some k) :
    FillsSlots off (elementSlots k n) (copyNonoverlapping (off.arrayBegin k) k.layout records) := by
  have hmap : elementSlots k n = records.zipIdx.map fun x => Slot.element k x.2 := by
    unfold elementSlots
    rw [← hlen, List.range_eq_range', ← List.zipIdx_map_snd 0 records, List.map_map]
    rfl
  rw [hmap]
  unfold copyNonoverlapping
  refine .recordAll fun a ha w hw => ?_
  obtain rfl := Except.ok.inj hw
  obtain ⟨hi, hr⟩ := List.mem_zipIdx' ha
  exact ⟨hl.elementOffset_ok (hn ▸ hlen ▸ hi), hk a.1 (hr ▸ List.getElem_mem hi)⟩

theorem fills_initializeDefinedTables :
    FillsSlots module.offsets
      (elementSlots .tables (module.translated.tables.length - module.translated.numImportedTables))
      (initializeDefinedTables tables module) := by
  unfold elementSlots initializeDefinedTables
  rw [definedTables_eq]
  refine .recordAll fun d _ w hw => ?_
  obtain ⟨o, ho, hw⟩ := bind_eq_ok.1 hw
  obtain ⟨table, -, hw⟩ := bind_eq_ok.1 hw
  obtain rfl := Except.ok.inj hw
  exact ⟨ho, rfl⟩

theorem fills_initializeDefinedMemories :
    FillsSlots module.offsets
      (elementSlots .memories
        (module.translated.memories.length - module.translated.numImportedMemories))
      (initializeDefinedMemories memories module) := by
  have hmap : elementSlots .memories
      (module.translated.memories.length - module.translated.numImportedMemories)
      = (module.translated.memories.zipIdx.filterMap fun x =>
        (module.translated.definedMemoryIndex x.2).map (·, x.1)).map
        fun x => Slot.element .memories x.1 := by
    unfold elementSlots
    rw [← definedMemories_eq, List.range_eq_range', ← List.zipIdx_map_snd 0 module.translated.memories,
      List.filterMap_map, List.map_filterMap, List.map_filterMap]
    refine List.filterMap_congr fun x _ => ?_
    rw [Option.map_map]
    rfl
  rw [hmap]
  unfold initializeDefinedMemories
  refine .recordAll fun a _ w hw => ?_
  obtain ⟨_, -, hw⟩ := bind_eq_ok.1 hw
  obtain ⟨o, ho, hw⟩ := bind_eq_ok.1 hw
  obtain ⟨memory, -, hw⟩ := bind_eq_ok.1 hw
  obtain rfl := Except.ok.inj hw
  exact ⟨ho, rfl⟩

theorem fills_initializeDefinedGlobals :
    FillsSlots module.offsets (elementSlots .globals module.translated.globalInitializers.length)
      (initializeDefinedGlobals ev module) := by
  have hmap : elementSlots .globals module.translated.globalInitializers.length
      = module.translated.globalInitializers.zipIdx.map fun x => Slot.element .globals x.2 := by
    unfold elementSlots
    rw [List.range_eq_range', ← List.zipIdx_map_snd 0 module.translated.globalInitializers,
      List.map_map]
    rfl
  rw [hmap]
  unfold initializeDefinedGlobals
  refine .forEach (fun a _ s w s' hw => ?_) ev
  obtain ⟨⟨val, s₁⟩, -, hw⟩ := bind_eq_ok.1 hw
  obtain ⟨o, ho, hw⟩ := bind_eq_ok.1 hw
  obtain ⟨rfl, -⟩ := Prod.mk.inj (Except.ok.inj hw)
  exact ⟨ho, rfl⟩

/-- What `initialize_vmctx` writes is in slots, and where it returns it has filled in those of the
module. -/
theorem fills_initializeVmctx (hl : Laid module.offsets)
    (hc : CountsOf module.offsets module.translated) (hi : imports.Complete module.translated) :
    FillsSlots module.offsets (moduleSlots module.translated)
      (initializeVmctx debug builtinFunctions ev vmctx tables memories module imports) := by
  unfold initializeVmctx moduleSlots
  refine .bind (.record ⟨rfl, rfl⟩) fun _ => .bind (.record ⟨rfl, _, rfl⟩) fun _ =>
    .bind (.record ⟨rfl, _, rfl⟩) fun _ => .bind fills_initializeVmfuncRefs fun _ =>
    .bind ?_ fun _ => .bind ?_ fun _ => .bind ?_ fun _ => .bind ?_ fun _ =>
    .bind fills_initializeDefinedTables fun _ => .bind fills_initializeDefinedMemories fun _ =>
    fills_initializeDefinedGlobals
  · exact fills_copyNonoverlapping hl (k := .importedFunctions) hc.numImportedFuncs (by simp [hi.functions])
      (by simp [VMRecord.array?])
  · exact fills_copyNonoverlapping hl (k := .importedTables) hc.numImportedTables (by simp [hi.tables])
      (by simp [VMRecord.array?])
  · exact fills_copyNonoverlapping hl (k := .importedMemories) hc.numImportedMemories (by simp [hi.memories])
      (by simp [VMRecord.array?])
  · exact fills_copyNonoverlapping hl (k := .importedGlobals) hc.numImportedGlobals (by simp [hi.globals])
      (by simp [VMRecord.array?])

end Initialize

/-! ## The slots of a module -/

open ModuleTranslator (Numbered Initialized)

theorem elementSlots_nodup (k : ArrayKind) (n : ℕ) : (elementSlots k n).Nodup :=
  List.nodup_range.map fun _ _ h => (Slot.element.inj h).2

theorem ModuleTranslator.Numbered.slots_nodup {m : TranslatedModule} (h : Numbered m) :
    ((m.functions.filter FunctionDesc.isEscaping).map
      fun d => Slot.element .funcRefs d.funcRef).Nodup := by
  refine List.pairwise_map.2 (List.pairwise_filter.2 (List.pairwise_iff_getElem.2 ?_))
  intro i j hi hj hij hesc _ heq
  have := h.inj i j _ _ (List.getElem?_eq_getElem hi) (List.getElem?_eq_getElem hj) hesc
    (Slot.element.inj heq).2
  omega

/-- The phase of the initialization that fills in a slot. -/
def VMOffsets.Slot.phase : Slot → ℕ
  | .word w => w.order
  | .element k _ => 3 + k.order

/-- The slots are different ones, of the phases from `n` on. -/
def NodupFrom (n : ℕ) (slots : List Slot) : Prop := slots.Nodup ∧ ∀ s ∈ slots, n ≤ s.phase

theorem NodupFrom.append {n : ℕ} {l l' : List Slot} (hl : l.Nodup) (hn : ∀ s ∈ l, s.phase = n)
    (h : NodupFrom (n + 1) l') : NodupFrom n (l ++ l') := by
  refine ⟨List.nodup_append.2 ⟨hl, h.1, fun s hs t ht hst => ?_⟩, fun s hs => ?_⟩
  · have := hn s hs
    have := h.2 t ht
    subst hst
    omega
  · rcases List.mem_append.1 hs with hs | hs
    · exact (hn s hs).ge
    · exact (Nat.le_succ n).trans (h.2 s hs)

theorem NodupFrom.word {w : Word} {l : List Slot} (h : NodupFrom (w.order + 1) l) :
    NodupFrom w.order ([.word w] ++ l) :=
  .append (List.nodup_singleton _) (fun _ hs => List.mem_singleton.1 hs ▸ rfl) h

theorem elementSlots_phase {k : ArrayKind} {n : ℕ} : ∀ s ∈ elementSlots k n, s.phase = 3 + k.order := by
  intro s hs
  obtain ⟨i, -, rfl⟩ := List.mem_map.1 hs
  rfl

theorem NodupFrom.elements {k : ArrayKind} {n : ℕ} {l : List Slot}
    (h : NodupFrom (3 + k.order + 1) l) : NodupFrom (3 + k.order) (elementSlots k n ++ l) :=
  .append (elementSlots_nodup k n) elementSlots_phase h

theorem moduleSlots_nodup {m : TranslatedModule} (h : Numbered m) : (moduleSlots m).Nodup := by
  have hglobals : NodupFrom 10 (elementSlots .globals m.globalInitializers.length) :=
    ⟨elementSlots_nodup _ _, fun s hs => (elementSlots_phase s hs).ge⟩
  have hfuncs : ∀ s ∈ (m.functions.filter FunctionDesc.isEscaping).map
      (fun d => Slot.element .funcRefs d.funcRef), s.phase = 3 := by
    intro s hs
    obtain ⟨d, -, rfl⟩ := List.mem_map.1 hs
    rfl
  have hall : NodupFrom 0 (moduleSlots m) :=
    .word (w := .magic) (.word (w := .builtinFunctions) (.word (w := .typeIds)
      (.append h.slots_nodup hfuncs (.elements (k := .importedFunctions)
        (.elements (k := .importedTables) (.elements (k := .importedMemories)
          (.elements (k := .importedGlobals) (.elements (k := .tables)
            (.elements (k := .memories) hglobals)))))))))
  exact hall.1

end K23VM
