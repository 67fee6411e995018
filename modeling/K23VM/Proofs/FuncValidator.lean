import Mathlib.Data.List.Forall2
import K23VM.Cranelift.FuncTranslator

/-!
# The height of the validator's control stack

The validation algorithm opens and closes as many control frames as the operators do by name, and ends
without any.
-/

namespace K23VM.Wasmparser

namespace FuncValidator

variable {P : Type} {r : WasmModuleResources} {sig : Signature P} {v v' : FuncValidator}

theorem checkThat_eq_ok {cond : Bool} : checkThat cond = .ok () ↔ cond = true := by
  cases cond <;> simp [checkThat, reject, pure, Except.pure]

/-! ## Operands -/

/-- Operands are exchanged, but for those below the innermost frame. -/
structure Keeps (v v' : FuncValidator) : Prop where
  control : v'.control = v.control
  locals : v'.locals = v.locals
  offset : v'.offset = v.offset
  ended : v'.endWhichEmptiedControl = v.endWhichEmptiedControl
  base : ∀ frame control, v.control = frame :: control → frame.height ≤ v.operands.length →
    frame.height ≤ v'.operands.length ∧ v'.operands.take frame.height = v.operands.take frame.height

theorem Keeps.refl (v : FuncValidator) : Keeps v v := ⟨rfl, rfl, rfl, rfl, fun _ _ _ h => ⟨h, rfl⟩⟩

theorem Keeps.trans {v v' v'' : FuncValidator} (h : Keeps v v') (h' : Keeps v' v'') : Keeps v v'' := by
  refine ⟨h'.control.trans h.control, h'.locals.trans h.locals, h'.offset.trans h.offset,
    h'.ended.trans h.ended, fun frame control hc hle => ?_⟩
  obtain ⟨hle', htake⟩ := h.base frame control hc hle
  obtain ⟨hle'', htake'⟩ := h'.base frame control (h.control.trans hc) hle'
  exact ⟨hle'', htake'.trans htake⟩

/-- Which locals are set is of no matter. -/
theorem Keeps.inits {v v' : FuncValidator} (h : Keeps v v') (inits : List ℕ) :
    Keeps v { v' with inits } := ⟨h.control, h.locals, h.offset, h.ended, h.base⟩

theorem keeps_append (v : FuncValidator) (tys : List (Option ValType)) :
    Keeps v { v with operands := v.operands ++ tys } := by
  refine ⟨rfl, rfl, rfl, rfl, fun frame control _ hle => ?_⟩
  rw [List.length_append, List.take_append_of_le_length hle]
  exact ⟨hle.trans (Nat.le_add_right _ _), rfl⟩

theorem pushOperand_keeps (v : FuncValidator) (ty : Option ValType) : Keeps v (v.pushOperand ty) :=
  keeps_append v [ty]

theorem pushOperands_keeps (v : FuncValidator) (tys : List ValType) : Keeps v (v.pushOperands tys) :=
  keeps_append v (tys.map some)

theorem popAny_keeps {ty : Option ValType} (h : v.popAny = .ok (ty, v')) : Keeps v v' := by
  unfold popAny at h
  split at h
  · cases h
  next top rest hc =>
    split_ifs at h with hle hun
    · cases h
      exact .refl _
    · cases h
    · cases h
      refine ⟨rfl, rfl, rfl, rfl, fun frame control hframe _ => ?_⟩
      rw [hc] at hframe
      obtain ⟨rfl, -⟩ := List.cons.inj hframe
      rw [List.dropLast_eq_take, List.length_take, List.take_take]
      exact ⟨by omega, by rw [Nat.min_eq_left (by omega)]⟩

theorem popOperand_keeps {ty : ValType} (h : v.popOperand r ty = .ok v') : Keeps v v' := by
  unfold popOperand at h
  obtain ⟨⟨actual, v1⟩, h1, h⟩ := bind_eq_ok.1 h
  cases actual with
  | none =>
    cases h
    exact popAny_keeps h1
  | some actual =>
    obtain ⟨_, -, h⟩ := bind_eq_ok.1 h
    cases h
    exact popAny_keeps h1

theorem foldlM_popOperand_keeps : ∀ {tys : List ValType} {v : FuncValidator},
    tys.foldlM (popOperand r) v = .ok v' → Keeps v v'
  | [], v, h => by
    cases h
    exact .refl _
  | ty :: tys, v, h => by
    rw [List.foldlM_cons] at h
    obtain ⟨v1, h1, h⟩ := bind_eq_ok.1 h
    exact (popOperand_keeps h1).trans (foldlM_popOperand_keeps h)

theorem popOperands_keeps {tys : List ValType} (h : v.popOperands r tys = .ok v') : Keeps v v' :=
  foldlM_popOperand_keeps h

theorem popRef_keeps {ty : Option RefType} (h : v.popRef = .ok (ty, v')) : Keeps v v' := by
  unfold popRef at h
  obtain ⟨⟨actual, v1⟩, h1, h⟩ := bind_eq_ok.1 h
  dsimp only at h
  split at h <;> cases h <;> exact popAny_keeps h1

theorem popPushLabelTypes_keeps {tys : List ValType} (h : v.popPushLabelTypes r tys = .ok v') :
    Keeps v v' := by
  unfold popPushLabelTypes at h
  obtain ⟨v1, h1, h⟩ := bind_eq_ok.1 h
  cases h
  exact (popOperands_keeps h1).trans (pushOperands_keeps v1 tys)

theorem selectType_keeps {ty ty' : Option ValType} (h : selectType r ty v = .ok (ty', v')) :
    Keeps v v' := by
  unfold selectType at h
  cases ty with
  | some ty =>
    obtain ⟨v1, h1, h⟩ := bind_eq_ok.1 h
    obtain ⟨v2, h2, h⟩ := bind_eq_ok.1 h
    cases h
    exact (popOperand_keeps h1).trans (popOperand_keeps h2)
  | none =>
    obtain ⟨⟨ty1, v1⟩, h1, h⟩ := bind_eq_ok.1 h
    obtain ⟨⟨ty2, v2⟩, h2, h⟩ := bind_eq_ok.1 h
    obtain ⟨_, -, h⟩ := bind_eq_ok.1 h
    have h3 := (popAny_keeps h1).trans (popAny_keeps h2)
    split at h
    · obtain ⟨_, -, h⟩ := bind_eq_ok.1 h
      cases h
      exact h3
    all_goals
      cases h
      exact h3

/-! ## Operands of known types

In a frame whose code is reached an operator pops operands of types that are known. -/

section Known

variable {tys : List ValType} {g : Frame} {control : List Frame}

theorem popAny_known {ty : Option ValType} (hops : v.operands = tys.map some)
    (hc : v.control = g :: control) (hreached : g.unreachable = false) (h : v.popAny = .ok (ty, v')) :
    ∃ tys' t, tys = tys' ++ [t] ∧ ty = some t ∧ g.height ≤ tys'.length
      ∧ v' = { v with operands := tys'.map some } := by
  unfold popAny at h
  rw [hc] at h
  dsimp only at h
  rw [hreached, hops, List.length_map] at h
  by_cases hle : tys.length ≤ g.height
  · rw [if_pos hle, if_neg Bool.false_ne_true] at h
    cases h
  rw [if_neg hle] at h
  rcases List.eq_nil_or_concat' tys with rfl | ⟨tys', t, rfl⟩
  · exact absurd (Nat.zero_le _) hle
  · rw [List.map_append, List.map_singleton, List.getLast?_concat, List.dropLast_concat] at h
    cases h
    rw [List.length_append, List.length_singleton] at hle
    exact ⟨tys', t, rfl, rfl, by omega, by rw [hc]⟩

theorem popOperand_known {ty : ValType} (hops : v.operands = tys.map some)
    (hc : v.control = g :: control) (hreached : g.unreachable = false)
    (h : v.popOperand r ty = .ok v') :
    ∃ tys' t, tys = tys' ++ [t] ∧ r.isSubtype t ty = true ∧ g.height ≤ tys'.length
      ∧ v' = { v with operands := tys'.map some } := by
  unfold popOperand at h
  obtain ⟨⟨actual, v1⟩, h1, h⟩ := bind_eq_ok.1 h
  obtain ⟨tys', t, htys, rfl, hle, rfl⟩ := popAny_known hops hc hreached h1
  obtain ⟨_, hsub, h⟩ := bind_eq_ok.1 h
  cases h
  exact ⟨tys', t, htys, checkThat_eq_ok.1 hsub, hle, rfl⟩

theorem foldlM_popOperand_known (hreached : g.unreachable = false) :
    ∀ {expected : List ValType} {v : FuncValidator} {tys : List ValType},
      v.operands = tys.map some → v.control = g :: control →
      expected.foldlM (popOperand r) v = .ok v' →
      ∃ tys' ts, tys = tys' ++ ts
        ∧ List.Forall₂ (fun t ty => r.isSubtype t ty = true) ts expected.reverse
        ∧ (g.height ≤ tys.length → g.height ≤ tys'.length)
        ∧ v' = { v with operands := tys'.map some }
  | [], v, tys, hops, _, h => by
    cases h
    refine ⟨tys, [], (List.append_nil tys).symm, .nil, id, ?_⟩
    rw [← hops]
  | ty :: expected, v, tys, hops, hcv, h => by
    rw [List.foldlM_cons] at h
    obtain ⟨v1, h1, h⟩ := bind_eq_ok.1 h
    obtain ⟨tys1, t, rfl, hsub, hle, hv1⟩ := popOperand_known hops hcv hreached h1
    have hops1 : v1.operands = tys1.map some := by rw [hv1]
    have hc1 : v1.control = g :: control := by rw [hv1, hcv]
    obtain ⟨tys', ts, rfl, hsubs, hle', rfl⟩ := foldlM_popOperand_known hreached hops1 hc1 h
    refine ⟨tys', ts ++ [t], List.append_assoc _ _ _, ?_, fun _ => hle' hle, by rw [hv1]⟩
    rw [List.reverse_cons]
    exact List.rel_append hsubs (.cons hsub .nil)

theorem popOperands_known {expected : List ValType} (hops : v.operands = tys.map some)
    (hc : v.control = g :: control) (hreached : g.unreachable = false)
    (h : v.popOperands r expected = .ok v') :
    ∃ tys' ts, tys = tys' ++ ts ∧ List.Forall₂ (fun t ty => r.isSubtype t ty = true) ts expected
      ∧ (g.height ≤ tys.length → g.height ≤ tys'.length)
      ∧ v' = { v with operands := tys'.map some } := by
  have hpop := foldlM_popOperand_known hreached hops hc h
  rwa [List.reverse_reverse] at hpop

theorem popRef_known {ty : Option RefType} (hops : v.operands = tys.map some)
    (hc : v.control = g :: control) (hreached : g.unreachable = false) (h : v.popRef = .ok (ty, v')) :
    ∃ tys' t, tys = tys' ++ [.ref t] ∧ ty = some t ∧ g.height ≤ tys'.length
      ∧ v' = { v with operands := tys'.map some } := by
  unfold popRef at h
  obtain ⟨⟨actual, v1⟩, h1, h⟩ := bind_eq_ok.1 h
  obtain ⟨tys', t, htys, rfl, hle, rfl⟩ := popAny_known hops hc hreached h1
  cases t with
  | ref t =>
    cases h
    exact ⟨tys', t, htys, rfl, hle, rfl⟩
  | _ => cases h

end Known

/-! ## Frames -/

theorem setUnreachable_cases (h : v.setUnreachable = .ok v') :
    ∃ frame control, v.control = frame :: control
      ∧ v' = { v with
        control := { frame with unreachable := true } :: control
        operands := v.operands.take frame.height } := by
  unfold setUnreachable at h
  cases hc : v.control with
  | nil =>
    rw [hc] at h
    cases h
  | cons frame control =>
    rw [hc] at h
    cases h
    exact ⟨frame, control, rfl, rfl⟩

/-- The results are popped, and no operand is left above the height of the frame. -/
theorem popCtrl_cases {frame : Frame} (h : v.popCtrl r = .ok (frame, v')) :
    ∃ control v1, v.control = frame :: control ∧ v.popOperands r frame.ty.results = .ok v1
      ∧ v1.operands.length = frame.height
      ∧ v' = { v1 with control, inits := v1.inits.take frame.initHeight } := by
  unfold popCtrl at h
  cases hc : v.control with
  | nil =>
    rw [hc] at h
    cases h
  | cons top control =>
    rw [hc] at h
    obtain ⟨v1, h1, h⟩ := bind_eq_ok.1 h
    obtain ⟨_, h2, h⟩ := bind_eq_ok.1 h
    cases h
    exact ⟨control, v1, rfl, h1, of_decide_eq_true (checkThat_eq_ok.1 h2), rfl⟩

theorem popCtrl_length {frame : Frame} (h : v.popCtrl r = .ok (frame, v')) :
    v'.control.length + 1 = v.control.length := by
  obtain ⟨control, v1, hc, -, -, rfl⟩ := popCtrl_cases h
  rw [hc]
  rfl

/-- What is left are the operands below the frame. -/
theorem popCtrl_operands {frame : Frame} (h : v.popCtrl r = .ok (frame, v'))
    (hle : frame.height ≤ v.operands.length) :
    v.control = frame :: v'.control ∧ v'.operands = v.operands.take frame.height
      ∧ v'.locals = v.locals := by
  obtain ⟨control, v1, hc, h1, hlen, rfl⟩ := popCtrl_cases h
  have hkeeps := popOperands_keeps h1
  refine ⟨hc, ?_, hkeeps.locals⟩
  rw [← (hkeeps.base _ _ hc hle).2, List.take_of_length_le hlen.le]

/-- What an operator with a signature does. -/
theorem stepSignature_keeps {ty : Option FuncType}
    (h : (match ty with
      | none => reject
      | some ty => do
        let v ← v.popOperands r ty.params
        pure (v.pushOperands ty.results)) = (.ok v' : Validate FuncValidator)) : Keeps v v' := by
  cases ty with
  | none => cases h
  | some ty =>
    obtain ⟨v1, h1, h⟩ := bind_eq_ok.1 h
    cases h
    exact (popOperands_keeps h1).trans (pushOperands_keeps v1 ty.results)

theorem branchOnCast_keeps {depth : ℕ} {fromRefType taken left : RefType}
    (h : v.branchOnCast r depth fromRefType taken left = .ok v') : Keeps v v' := by
  unfold branchOnCast at h
  obtain ⟨tys, -, h⟩ := bind_eq_ok.1 h
  split at h
  · cases h
  · obtain ⟨_, -, h⟩ := bind_eq_ok.1 h
    obtain ⟨v1, h1, h⟩ := bind_eq_ok.1 h
    obtain ⟨v2, h2, h⟩ := bind_eq_ok.1 h
    cases h
    exact ((popOperand_keeps h1).trans (popPushLabelTypes_keeps h2)).trans (pushOperand_keeps v2 _)

/-- What a call in tail position does. -/
theorem stepReturnCall_keeps {ty : Option FuncType}
    (h : (match ty with
      | none => reject
      | some ty => do
        checkFuncTypeSameResults r v ty
        let v ← v.popOperands r ty.params
        v.setUnreachable) = (.ok v' : Validate FuncValidator)) :
    ∃ v1, Keeps v v1 ∧ v1.setUnreachable = .ok v' := by
  cases ty with
  | none => cases h
  | some ty =>
    obtain ⟨_, -, h⟩ := bind_eq_ok.1 h
    obtain ⟨v1, h1, h⟩ := bind_eq_ok.1 h
    exact ⟨v1, popOperands_keeps h1, h⟩

/-- Any other operator leaves the frames as they are, unless what follows is not reached. -/
theorem step_simple {op : Operator P} (hop : op.isStructured = false) (h : step r sig v op = .ok v') :
    ∃ v1, Keeps v v1 ∧ (v' = v1 ∨ v1.setUnreachable = .ok v') := by
  cases op with
  | block | loop | if_ | else_ | end_ | tryTable => cases hop
  | unreachable => exact ⟨v, .refl v, .inr h⟩
  | nop =>
    cases h
    exact ⟨v, .refl v, .inl rfl⟩
  | drop =>
    unfold step at h
    obtain ⟨⟨_, v1⟩, h1, h⟩ := bind_eq_ok.1 h
    cases h
    exact ⟨v1, popAny_keeps h1, .inl rfl⟩
  | select ty =>
    unfold step at h
    obtain ⟨v1, h1, h⟩ := bind_eq_ok.1 h
    obtain ⟨⟨ty', v2⟩, h2, h⟩ := bind_eq_ok.1 h
    cases h
    exact ⟨_, ((popOperand_keeps h1).trans (selectType_keeps h2)).trans (pushOperand_keeps v2 ty'),
      .inl rfl⟩
  | br depth =>
    unfold step at h
    obtain ⟨tys, -, h⟩ := bind_eq_ok.1 h
    obtain ⟨v1, h1, h⟩ := bind_eq_ok.1 h
    exact ⟨v1, popOperands_keeps h1, .inr h⟩
  | brIf depth =>
    unfold step at h
    obtain ⟨v1, h1, h⟩ := bind_eq_ok.1 h
    obtain ⟨tys, -, h⟩ := bind_eq_ok.1 h
    exact ⟨v', (popOperand_keeps h1).trans (popPushLabelTypes_keeps h), .inl rfl⟩
  | brTable depths default =>
    unfold step at h
    obtain ⟨v1, h1, h⟩ := bind_eq_ok.1 h
    obtain ⟨tys, -, h⟩ := bind_eq_ok.1 h
    obtain ⟨_, -, h⟩ := bind_eq_ok.1 h
    obtain ⟨v2, h2, h⟩ := bind_eq_ok.1 h
    exact ⟨v2, (popOperand_keeps h1).trans (popOperands_keeps h2), .inr h⟩
  | return_ =>
    unfold step at h
    dsimp only at h
    split at h
    · cases h
    · obtain ⟨v1, h1, h⟩ := bind_eq_ok.1 h
      exact ⟨v1, popOperands_keeps h1, .inr h⟩
  | localGet i =>
    unfold step at h
    dsimp only at h
    split at h
    · cases h
    · obtain ⟨_, -, h⟩ := bind_eq_ok.1 h
      cases h
      exact ⟨_, pushOperand_keeps v _, .inl rfl⟩
  | localSet i =>
    unfold step at h
    dsimp only at h
    split at h
    · cases h
    · obtain ⟨v1, h1, h⟩ := bind_eq_ok.1 h
      cases h
      exact ⟨_, (popOperand_keeps h1).inits _, .inl rfl⟩
  | localTee i =>
    unfold step at h
    dsimp only at h
    split at h
    · cases h
    next ty _ =>
      obtain ⟨v1, h1, h⟩ := bind_eq_ok.1 h
      cases h
      exact ⟨_, ((popOperand_keeps h1).trans (pushOperand_keeps v1 (some ty))).inits _, .inl rfl⟩
  | refIsNull =>
    unfold step at h
    obtain ⟨⟨_, v1⟩, h1, h⟩ := bind_eq_ok.1 h
    cases h
    exact ⟨_, (popRef_keeps h1).trans (pushOperand_keeps v1 _), .inl rfl⟩
  | refAsNonNull =>
    unfold step at h
    obtain ⟨⟨_, v1⟩, h1, h⟩ := bind_eq_ok.1 h
    cases h
    exact ⟨_, (popRef_keeps h1).trans (pushOperand_keeps v1 _), .inl rfl⟩
  | brOnNull depth =>
    unfold step at h
    obtain ⟨⟨_, v1⟩, h1, h⟩ := bind_eq_ok.1 h
    obtain ⟨tys, -, h⟩ := bind_eq_ok.1 h
    obtain ⟨v2, h2, h⟩ := bind_eq_ok.1 h
    cases h
    exact ⟨_, ((popRef_keeps h1).trans (popPushLabelTypes_keeps h2)).trans (pushOperand_keeps v2 _),
      .inl rfl⟩
  | brOnNonNull depth =>
    unfold step at h
    obtain ⟨tys, -, h⟩ := bind_eq_ok.1 h
    obtain ⟨⟨ty, v1⟩, h1, h⟩ := bind_eq_ok.1 h
    dsimp only at h
    split at h
    · exact ⟨v', (popRef_keeps h1).trans (popPushLabelTypes_keeps h), .inl rfl⟩
    · obtain ⟨_, -, h⟩ := bind_eq_ok.1 h
      exact ⟨v', (popRef_keeps h1).trans (popPushLabelTypes_keeps h), .inl rfl⟩
    · cases h
  | brOnCast depth fromRefType toRefType | brOnCastFail depth fromRefType toRefType =>
    unfold step at h
    obtain ⟨_, -, h⟩ := bind_eq_ok.1 h
    exact ⟨v', branchOnCast_keeps h, .inl rfl⟩
  | call p | callIndirect p | plain p => exact ⟨v', stepSignature_keeps h, .inl rfl⟩
  | returnCall p | returnCallIndirect p =>
    obtain ⟨v1, hkeeps, hset⟩ := stepReturnCall_keeps h
    exact ⟨v1, hkeeps, .inr hset⟩
  | throw tag =>
    unfold step at h
    obtain ⟨params, -, h⟩ := bind_eq_ok.1 h
    obtain ⟨v1, h1, h⟩ := bind_eq_ok.1 h
    exact ⟨v1, popOperands_keeps h1, .inr h⟩
  | throwRef =>
    unfold step at h
    obtain ⟨v1, h1, h⟩ := bind_eq_ok.1 h
    exact ⟨v1, popOperand_keeps h1, .inr h⟩

/-- An operator that opens a frame pops the parameters of its type, and pushes them again in the
frame. -/
def Opens (r : WasmModuleResources) (v : FuncValidator) (kind : FrameKind) (bt : BlockType)
    (v' : FuncValidator) : Prop :=
  ∃ ty v1, r.blockTypes bt = some ty ∧ v.popOperands r ty.params = .ok v1 ∧ v' = v1.pushCtrl kind ty

theorem checkBlockType_eq_ok {bt : BlockType} {ty : FuncType} (h : checkBlockType r bt = .ok ty) :
    r.blockTypes bt = some ty := by
  unfold checkBlockType at h
  split at h
  · cases h
    assumption
  · cases h

theorem stepOpen_cases {kind : FrameKind} {bt : BlockType}
    (h : (checkBlockType r bt >>= fun ty => v.popOperands r ty.params >>= fun v =>
      pure (v.pushCtrl kind ty)) = .ok v') : Opens r v kind bt v' := by
  obtain ⟨ty, hty, h⟩ := bind_eq_ok.1 h
  obtain ⟨v1, h1, h⟩ := bind_eq_ok.1 h
  cases h
  exact ⟨ty, v1, checkBlockType_eq_ok hty, h1, rfl⟩

theorem stepTryTable_cases {t : TryTable P} (h : step r sig v (.tryTable t) = .ok v') :
    Opens r v .tryTable t.ty v' := by
  unfold step at h
  obtain ⟨ty, hty, h⟩ := bind_eq_ok.1 h
  obtain ⟨v1, h1, h⟩ := bind_eq_ok.1 h
  obtain ⟨_, -, h⟩ := bind_eq_ok.1 h
  cases h
  exact ⟨ty, v1, checkBlockType_eq_ok hty, h1, rfl⟩

theorem stepIf_cases {bt : BlockType} (h : step r sig v (.if_ bt) = .ok v') :
    ∃ v1, v.popOperand r .i32 = .ok v1 ∧ Opens r v1 .if_ bt v' := by
  unfold step at h
  obtain ⟨ty, hty, h⟩ := bind_eq_ok.1 h
  obtain ⟨v1, h1, h⟩ := bind_eq_ok.1 h
  obtain ⟨v2, h2, h⟩ := bind_eq_ok.1 h
  cases h
  exact ⟨v1, h1, ty, v2, checkBlockType_eq_ok hty, h2, rfl⟩

theorem Opens.length {kind : FrameKind} {bt : BlockType} (h : Opens r v kind bt v') :
    v'.control.length = v.control.length + 1 := by
  obtain ⟨ty, v1, -, h1, rfl⟩ := h
  exact congrArg (List.length · + 1) (popOperands_keeps h1).control

theorem stepElse_cases (h : step r sig v .else_ = .ok v') :
    ∃ frame v1, v.popCtrl r = .ok (frame, v1) ∧ frame.kind = .if_
      ∧ v' = v1.pushCtrl .else_ frame.ty := by
  unfold step at h
  obtain ⟨⟨frame, v1⟩, h1, h⟩ := bind_eq_ok.1 h
  obtain ⟨_, h2, h⟩ := bind_eq_ok.1 h
  cases h
  exact ⟨frame, v1, h1, of_decide_eq_true (checkThat_eq_ok.1 h2), rfl⟩

/-- An `end` pops its frame and pushes the results; an `if` that has no `else` has parameters that can
be its results. -/
theorem stepEnd_cases (h : step r sig v .end_ = .ok v') :
    ∃ frame v1, v.popCtrl r = .ok (frame, v1) ∧ v'.control = v1.control
      ∧ v'.operands = v1.operands ++ frame.ty.results.map some ∧ v'.locals = v1.locals
      ∧ v'.offset = v.offset
      ∧ v'.endWhichEmptiedControl = (if v1.control.isEmpty && v.endWhichEmptiedControl.isNone
          then some v.offset else v.endWhichEmptiedControl) := by
  unfold step at h
  obtain ⟨⟨frame, v1⟩, h1, h⟩ := bind_eq_ok.1 h
  obtain ⟨_, v2, -, h2, -, hv1⟩ := popCtrl_cases h1
  have hoffset : v1.offset = v.offset := by rw [hv1, (popOperands_keeps h2).offset]
  have hended : v1.endWhichEmptiedControl = v.endWhichEmptiedControl := by
    rw [hv1, (popOperands_keeps h2).ended]
  rw [← hended, ← hoffset]
  refine ⟨frame, v1, h1, ?_⟩
  -- without an `else` there is an empty one
  obtain ⟨v3, hif, hcontrol, hoperands, hlocals, hoffset', hended'⟩ : ∃ v3 : FuncValidator,
      (if v3.control.isEmpty && v3.endWhichEmptiedControl.isNone then
        pure { v3.pushOperands frame.ty.results with endWhichEmptiedControl := some v3.offset }
      else pure (v3.pushOperands frame.ty.results)) = (.ok v' : Validate FuncValidator)
      ∧ v3.control = v1.control ∧ v3.operands = v1.operands ∧ v3.locals = v1.locals
      ∧ v3.offset = v1.offset ∧ v3.endWhichEmptiedControl = v1.endWhichEmptiedControl := by
    dsimp only at h
    by_cases hkind : frame.kind = .if_
    · rw [if_pos hkind] at h
      obtain ⟨⟨frame', v4⟩, h4, h⟩ := bind_eq_ok.1 h
      obtain ⟨control, v5, hc, h5, hlen, rfl⟩ := popCtrl_cases h4
      obtain ⟨rfl, rfl⟩ := List.cons.inj hc
      have hkeeps := popOperands_keeps h5
      obtain ⟨v6, h6, h⟩ := bind_eq_ok.1 h
      have hv6 := Except.ok.inj h6
      refine ⟨v6, h, ?_⟩
      rw [← hv6]
      refine ⟨rfl, ?_, hkeeps.locals, hkeeps.offset, hkeeps.ended⟩
      have hbase := (hkeeps.base _ _ rfl (by simp [pushCtrl])).2
      rw [List.take_of_length_le hlen.le] at hbase
      simpa [pushCtrl] using hbase
    · rw [if_neg hkind] at h
      obtain ⟨v6, h6, h⟩ := bind_eq_ok.1 h
      cases h6
      exact ⟨v1, h, rfl, rfl, rfl, rfl, rfl⟩
  rw [← hcontrol, ← hoperands, ← hlocals, ← hoffset', ← hended']
  split_ifs at hif ⊢ <;> cases hif <;> exact ⟨rfl, rfl, rfl, rfl, rfl⟩

theorem setUnreachable_length (h : v.setUnreachable = .ok v') :
    v'.control.length = v.control.length := by
  obtain ⟨frame, control, hc, rfl⟩ := setUnreachable_cases h
  rw [hc]
  rfl

/-- What an operator does to the height, which a `try_table` raises without a frame of the translator. -/
theorem step_length {op : Operator P} (h : step r sig v op = .ok v') :
    v.control.length + op.opens ≤ v'.control.length + op.closes := by
  cases hop : op.isStructured with
  | false =>
    obtain ⟨v1, hkeeps, hv⟩ := step_simple hop h
    have hlen : v'.control.length = v.control.length := by
      rw [← congrArg List.length hkeeps.control]
      rcases hv with rfl | hv
      · rfl
      · exact setUnreachable_length hv
    cases op with
    | block | loop | if_ | else_ | end_ | tryTable => cases hop
    | _ => exact hlen.ge
  | true =>
    cases op with
    | block => exact (stepOpen_cases h).length.ge
    | loop => exact (stepOpen_cases h).length.ge
    | if_ =>
      obtain ⟨v1, h1, h2⟩ := stepIf_cases h
      have h3 := congrArg List.length (popOperand_keeps h1).control
      exact (congrArg (· + 1) h3).ge.trans h2.length.ge
    | tryTable => exact (Nat.le_succ _).trans (stepTryTable_cases h).length.ge
    | else_ =>
      obtain ⟨frame, v1, h1, -, rfl⟩ := stepElse_cases h
      exact (popCtrl_length h1).ge
    | end_ =>
      obtain ⟨frame, v1, h1, hc, -⟩ := stepEnd_cases h
      have h2 := (popCtrl_length h1).ge
      rw [← hc] at h2
      exact h2
    | _ => cases hop

/-- What any operator leaves as it is: the locals, the type of the outermost frame, and where the body
ended, which an operator is that closes this frame. -/
structure StepKeeps (v v' : FuncValidator) : Prop where
  locals : v'.locals = v.locals
  offset : v'.offset = v.offset
  outermost : v.control ≠ [] → ∀ g', v'.control.getLast? = some g' →
    ∃ g, v.control.getLast? = some g ∧ g.ty = g'.ty
  ended : v'.endWhichEmptiedControl = v.endWhichEmptiedControl
    ∨ v.endWhichEmptiedControl = none ∧ v'.endWhichEmptiedControl = some v.offset ∧ v'.control = []
  emptied : v.control ≠ [] → v.endWhichEmptiedControl = none → v'.control = [] →
    v'.endWhichEmptiedControl = some v.offset

theorem Keeps.stepKeeps (h : Keeps v v') : StepKeeps v v' where
  locals := h.locals
  offset := h.offset
  outermost _ g' hg' := ⟨g', h.control ▸ hg', rfl⟩
  ended := .inl h.ended
  emptied hne _ hnil := absurd (h.control ▸ hnil) hne

/-- The innermost frame is exchanged for another one of the same type. -/
theorem stepKeeps_exchange {v1 : FuncValidator} {g g' : Frame} {control : List Frame} (h : Keeps v v1)
    (hc : v.control = g :: control) (hty : g'.ty = g.ty) (operands : List (Option ValType))
    (inits : List ℕ) : StepKeeps v { v1 with control := g' :: control, operands, inits } where
  locals := h.locals
  offset := h.offset
  outermost _ top htop := by
    rw [hc]
    cases control with
    | nil =>
      obtain rfl := Option.some_inj.1 htop
      exact ⟨g, rfl, hty.symm⟩
    | cons next rest => exact ⟨top, htop, rfl⟩
  ended := .inl h.ended
  emptied _ _ hnil := absurd hnil (List.cons_ne_nil _ _)

theorem stepKeeps_opens {kind : FrameKind} {bt : BlockType} {v1 : FuncValidator} (h : Keeps v v1)
    (hopens : Opens r v1 kind bt v') : StepKeeps v v' := by
  obtain ⟨ty, v2, -, h2, rfl⟩ := hopens
  have hkeeps := h.trans (popOperands_keeps h2)
  refine ⟨hkeeps.locals, hkeeps.offset, fun hne g' hg' => ⟨g', ?_, rfl⟩, .inl hkeeps.ended,
    fun _ _ hnil => absurd hnil (List.cons_ne_nil _ _)⟩
  unfold pushCtrl at hg'
  dsimp only at hg'
  rwa [hkeeps.control, List.getLast?_cons_of_ne_nil hne] at hg'

theorem step_keeps {op : Operator P} (h : step r sig v op = .ok v') : StepKeeps v v' := by
  cases hop : op.isStructured with
  | false =>
    obtain ⟨v1, hkeeps, rfl | hset⟩ := step_simple hop h
    · exact hkeeps.stepKeeps
    · obtain ⟨g, control, hc, rfl⟩ := setUnreachable_cases hset
      refine stepKeeps_exchange hkeeps (hkeeps.control.symm.trans hc) ?_ _ _
      rfl
  | true =>
    cases op with
    | block | loop => exact stepKeeps_opens (.refl v) (stepOpen_cases h)
    | tryTable => exact stepKeeps_opens (.refl v) (stepTryTable_cases h)
    | if_ =>
      obtain ⟨v1, h1, h2⟩ := stepIf_cases h
      exact stepKeeps_opens (popOperand_keeps h1) h2
    | else_ =>
      obtain ⟨frame, v1, h1, -, rfl⟩ := stepElse_cases h
      obtain ⟨control, v2, hc, h2, -, rfl⟩ := popCtrl_cases h1
      refine stepKeeps_exchange (popOperands_keeps h2) hc ?_ _ _
      rfl
    | end_ =>
      obtain ⟨frame, v1, h1, hc, -, hlocals, hoffset, hended⟩ := stepEnd_cases h
      obtain ⟨control, v2, hv, h2, -, rfl⟩ := popCtrl_cases h1
      have hkeeps := popOperands_keeps h2
      dsimp only at hc hended hlocals
      refine ⟨hlocals.trans hkeeps.locals, hoffset, fun _ g' hg' => ⟨g', ?_, rfl⟩, ?_, ?_⟩
      · rw [hc] at hg'
        rw [hv]
        cases control with
        | nil => cases hg'
        | cons => exact hg'
      · rw [hc, hended]
        split_ifs with hempty
        · rw [Bool.and_eq_true, List.isEmpty_iff, Option.isNone_iff_eq_none] at hempty
          exact .inr ⟨hempty.2, rfl, hempty.1⟩
        · exact .inl rfl
      · intro _ hnone hnil
        rw [hended, ← hc, hnil, hnone]
        rfl
    | _ => cases hop

/-- The algorithm as the validator of a compiler. -/
def bodyValidator (r : WasmModuleResources) (sig : Signature P) :
    Cranelift.BodyValidator P FuncValidator :=
  ⟨defineLocals, op r sig, finish⟩

theorem bodyValidator_lawful : (bodyValidator r sig).Lawful fun v => v.control.length where
  defineLocals h := by
    unfold bodyValidator defineLocals at h
    obtain ⟨_, -, h⟩ := bind_eq_ok.1 h
    cases h
    rfl
  op h := by
    unfold bodyValidator op at h
    obtain ⟨v1, h1, h⟩ := bind_eq_ok.1 h
    cases h
    have h2 := step_length h1
    exact h2
  finish h := by
    unfold bodyValidator finish at h
    dsimp only at h
    split at h
    · cases h
    · have h1 := checkThat_eq_ok.1 h
      rw [Bool.and_eq_true, List.isEmpty_iff] at h1
      exact List.length_eq_zero_iff.2 h1.1

end FuncValidator

end K23VM.Wasmparser
