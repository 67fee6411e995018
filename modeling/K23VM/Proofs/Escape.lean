import K23VM.Proofs.TranslatedModule
import K23VM.Proofs.VMOffsets

/-!
# Functions that can become values

Every function that is exported, or named in a constant expression or an element segment, needs a
`VMFuncRef`.  The translation flags them all but those in the function lists of element segments, so
that it is complete exactly where these are exported or named in an expression too,
`escapesComplete_iff`.
-/

namespace K23VM

open Wasmparser (BinaryReaderError Payload Validator ValidModule MayEscape declared)

namespace ModuleTranslator

/-- The function is flagged, and its `VMFuncRef` can be addressed. -/
def HasFuncRef (m : TranslatedModule) (off : VMOffsets) (f : ℕ) : Prop :=
  ∃ d o, m.functions[f]? = some d ∧ d.isEscaping ∧ off.vmctxVmfuncRef d.funcRef = .ok o

/-- Every function that can become a value, or be reached from outside, has a `VMFuncRef`, and so has
every function that a body names. -/
def EscapesComplete (ps : List Payload) (m : TranslatedModule) (off : VMOffsets) : Prop :=
  (∀ f, MayEscape ps f → HasFuncRef m off f)
    ∧ ∀ body ∈ (declared ps).bodies, ∀ f ∈ body.refFuncs, HasFuncRef m off f

theorem Numbered.hasFuncRef_iff {m : TranslatedModule} {off : VMOffsets} (hn : Numbered m)
    (hoff : VMOffsets.forModule 8 m = .ok off) (f : ℕ) : HasFuncRef m off f ↔ Escaping m f := by
  obtain ⟨hl, hc⟩ := VMOffsets.forModule_laid hoff
  constructor
  · rintro ⟨d, o, hd, he, -⟩
    exact ⟨d, hd, he⟩
  · rintro ⟨d, hd, he⟩
    have hlt : d.funcRef < off.count .funcRefs := by
      show d.funcRef < off.numEscapedFuncs
      rw [hc.numEscapedFuncs]
      exact hn.lt f d hd he
    exact ⟨d, _, hd, he, hl.elementOffset_ok hlt⟩

/-- The escape analysis is complete exactly where each function in a function list of an element
segment is exported or named in an expression. -/
theorem escapesComplete_iff {σ : Type} {V : Validator σ} {debug : Bool} {ps : List Payload}
    {v v' : σ} {t : ModuleTranslator} {types : ModuleTypes} (hv : ValidModule ps)
    (h : translate V debug v (ps.map .ok) = .ok (.ok (t, types), v')) :
    ∃ off, VMOffsets.forModule 8 t.module = .ok off
      ∧ (EscapesComplete ps t.module off ↔
        ∀ p ∈ ps, ∀ f ∈ p.listFuncs, ∃ q ∈ ps, f ∈ q.exportedFuncs ∨ f ∈ q.refFuncs) := by
  have ht := translate_translated hv h
  obtain ⟨off, hoff, -⟩ := VMOffsets.forModule_ok ht.withinLimits
  refine ⟨off, hoff, ?_⟩
  have href : ∀ f, HasFuncRef t.module off f ↔
      ∃ q ∈ ps, f ∈ q.exportedFuncs ∨ f ∈ q.refFuncs := fun f => by
    rw [ht.numbered.hasFuncRef_iff hoff, ht.escaping]
  constructor
  · rintro ⟨hall, -⟩ p hp f hf
    exact (href f).1 (hall f ⟨p, hp, .inr (.inr (.inl hf))⟩)
  · intro hlist
    have hall : ∀ f, MayEscape ps f → HasFuncRef t.module off f := by
      rintro f ⟨p, hp, hf | hf | hf | hf⟩
      · exact (href f).2 ⟨p, hp, .inl hf⟩
      · exact (href f).2 ⟨p, hp, .inr hf⟩
      · exact (href f).2 (hlist p hp f hf)
      · rw [hv.offsets p hp] at hf
        cases hf
    exact ⟨hall, fun body hb f hf => hall f (hv.declaredFuncs body hb f hf)⟩

section Example

/-- A module with a function that names itself, and a passive element segment. -/
def segmentModule (items : Wasmparser.ElementItems) : List Payload :=
  [.version, .typeSection 1, .functionSection [.ok 0], .elementSection [.ok ⟨.passive, items⟩],
    .codeSectionStart 1, .codeSectionEntry ⟨[0x00, 0xd2, 0x00, 0x1a, 0x0b], [0]⟩, .end_]

theorem segmentModule_valid {items : Wasmparser.ElementItems}
    (h : 0 ∈ items.refFuncs ∨ 0 ∈ items.funcs) : ValidModule (segmentModule items) where
  ordered := by
    show [1, 3, 10, 12].Pairwise (· < ·)
    decide
  functions_le := by
    show 1 ≤ 1000000
    decide
  imports_le := Nat.zero_le _
  tables_le := Nat.zero_le _
  memories_le := Nat.zero_le _
  globals_le := Nat.zero_le _
  bodies := rfl
  offsets p hp := by
    simp only [segmentModule, List.mem_cons, List.not_mem_nil, or_false] at hp
    obtain rfl | rfl | rfl | rfl | rfl | rfl | rfl := hp <;> rfl
  declaredFuncs := by
    intro body hb f hf
    obtain rfl := List.mem_singleton.1 hb
    obtain rfl := List.mem_singleton.1 hf
    refine ⟨.elementSection [.ok ⟨.passive, items⟩], by simp [segmentModule], .inr ?_⟩
    rcases h with h | h
    · exact .inl (List.mem_append_left _ h)
    · exact .inr (.inl (List.mem_append_left _ h))

/-- The function is in a list of functions. -/
def listItems : Wasmparser.ElementItems := .functions [.ok 0]

/-- The function is in an expression. -/
def exprItems : Wasmparser.ElementItems :=
  .expressions [.ok [.ok (.refFunc 0, 0), .ok (.end_, 2)]]

/-- A function that is only in a list of functions is not flagged. -/
theorem escapes_incomplete_list :
    ∃ t types, ValidModule (segmentModule listItems)
      ∧ translate permissiveValidator true () ((segmentModule listItems).map .ok)
        = .ok (.ok (t, types), ())
      ∧ MayEscape (segmentModule listItems) 0 ∧ ¬ Escaping t.module 0 := by
  refine ⟨_, _, segmentModule_valid (.inr (List.mem_singleton.2 rfl)), rfl, ?_, ?_⟩
  · exact ⟨.elementSection [.ok ⟨.passive, listItems⟩], by simp [segmentModule],
      .inr (.inr (.inl (List.mem_singleton.2 rfl)))⟩
  · rintro ⟨d, hd, he⟩
    obtain rfl := Option.some_inj.1 hd
    cases he

/-- A function in an expression is flagged. -/
theorem escapes_complete_expr :
    ∃ t types off, translate permissiveValidator true () ((segmentModule exprItems).map .ok)
        = .ok (.ok (t, types), ())
      ∧ EscapesComplete (segmentModule exprItems) t.module off := by
  have hvalid : ValidModule (segmentModule exprItems) :=
    segmentModule_valid (.inl (List.mem_singleton.2 rfl))
  obtain ⟨t, types, hrun⟩ : ∃ t types,
      translate permissiveValidator true () ((segmentModule exprItems).map .ok)
        = .ok (.ok (t, types), ()) := ⟨_, _, rfl⟩
  obtain ⟨off, -, h⟩ := escapesComplete_iff hvalid hrun
  refine ⟨t, types, off, hrun, h.2 fun p hp f hf => ?_⟩
  simp only [segmentModule, List.mem_cons, List.not_mem_nil, or_false] at hp
  obtain rfl | rfl | rfl | rfl | rfl | rfl | rfl := hp <;> cases hf

end Example

end ModuleTranslator

end K23VM
