import K23VM.Proofs.LockstepBlocks

/-!
# Lockstep where code is not reached

Blocks in code that is not reached are placeholders, above all values.  The `else` and the `end` of a
block that was opened in reached code find its values below them, whatever was left on the stack, and
code may be reached again.
-/

namespace K23VM.Cranelift

open Wasmparser FunctionBuilder FuncTranslationState TranslationEnvironment FuncValidator

variable {Q : Type} {env : TranslationEnvironment Q} {sig : Signature Q}
  {t t' : FuncTranslationState Q} {v v' : FuncValidator} {results : List ValType}
  {bases : List (List ℕ)}

/-- A state in which code is not reached. -/
structure Unreached (env : TranslationEnvironment Q) (results : List ValType) (bases : List (List ℕ))
    (t : FuncTranslationState Q) (v : FuncValidator) : Prop where
  types : TypesOk env
  function : FunctionOk env results t.builder v
  reachable : t.reachable = false
  fits : t.stack.length < 2 ^ 64
  dead : Dead env t.builder t.stack bases v.operands t.controlStack v.control

/-! ## New frames -/

section Opens

variable {bt : BlockType} {op : Operator Q}

theorem unreached_nextBases (h : Unreached env results bases t v) (hopens : op.opens = 1) :
    nextBases env.resources t.reachable t.stack op bases = t.stack :: bases := by
  unfold nextBases valuesBelow
  rw [if_pos hopens, h.reachable]
  rfl

/-- A block or a loop is opened as a block. -/
theorem unreached_block {op : Operator Q} {kind : FrameKind} (h : Unreached env results bases t v)
    (hopens : Opens env.resources v kind bt v') (hkind : kind ≠ .if_) :
    Yields (EnvFault env sig op) (Simulates env results (t.stack :: bases) t v')
      (t.pushBlock env.debug RESERVED 0 0) := by
  have hpush := pushBlock_of_stack t env.debug RESERVED 0 (List.append_nil _).symm h.fits
  rw [List.length_nil] at hpush
  rw [hpush]
  refine ⟨.refl _ _, fun _ => .dead h.reachable (h.dead.opens hopens fun g hg => ?_)⟩
  exact ⟨rfl, rfl, rfl, .block (hg ▸ hkind)⟩

theorem unreached_if {op : Operator Q} (h : Unreached env results bases t v)
    (hstep : step env.resources sig v (.if_ bt) = .ok v') :
    Yields (EnvFault env sig op) (Simulates env results (t.stack :: bases) t v')
      (t.pushIf env.debug RESERVED (.noElse RESERVED RESERVED) 0 0 bt) := by
  obtain ⟨v1, h1, hopens⟩ := stepIf_cases hstep
  have hpush := pushIf_of_stack t env.debug RESERVED 0 (.noElse RESERVED RESERVED) bt
    (List.append_nil _).symm h.fits
  have hlt : (t.stack ++ []).length < 2 ^ 64 := (List.append_nil t.stack).symm ▸ h.fits
  have hsize := wrappingSub_append hlt
  rw [List.length_nil] at hpush hsize
  rw [hpush, hsize, List.append_nil, h.reachable]
  refine ⟨.refl _ _, fun _ => .dead rfl ?_⟩
  refine (h.dead.keeps (popOperand_keeps h1)).opens hopens fun g hg => ?_
  exact ⟨rfl, rfl, rfl, .if_ hg⟩

end Opens

/-! ## The other branch of an `if` -/

/-- The operands of the innermost frame are dropped with it. -/
theorem unreached_popCtrl {g : Frame} {v1 : FuncValidator} (h : Unreached env results bases t v)
    (hpop : v.popCtrl env.resources = .ok (g, v1)) :
    Dead env t.builder t.stack bases v.operands t.controlStack (g :: v1.control)
      ∧ v1.operands = v.operands.take g.height := by
  obtain ⟨control, v2, hc, -, -, rfl⟩ := popCtrl_cases hpop
  have hdead := h.dead
  rw [hc] at hdead
  obtain ⟨-, hops, -⟩ := popCtrl_operands hpop hdead.height_le
  exact ⟨hdead, hops⟩

theorem unreached_else (h : Unreached env results bases t v)
    (hstep : step env.resources sig v .else_ = .ok v') :
    Yields (EnvFault env sig .else_) (Simulates env results bases t v')
      (env.translateUnreachableOperator t .else_) := by
  obtain ⟨g, v1, h1, hkind, rfl⟩ := stepElse_cases hstep
  obtain ⟨hdead, hops1⟩ := unreached_popCtrl h h1
  generalize hframes : t.controlStack = frames at hdead
  cases hdead with
  | @top bases below dup junk operands ops tys f g fs control hstack hops hbelow hbase =>
    obtain ⟨elseData, bt, hdata, hty, helse⟩ := hbase.ifData hkind
    have hops1' : v1.operands = tys.map some := by
      rw [hops1, hops, hbase.height, ← List.length_map some, List.take_left]
    have hsize : t.stack.take f.originalStackSize = below ++ dup := by
      have hdup := hbase.dup
      rw [hdata] at hdup
      have hlen : f.originalStackSize = (below ++ dup).length := by
        rw [hbase.size, List.length_append, ← Holds.length hdup, ← hbase.frame.numParams]
        unfold ControlStackFrame.extra
        rw [hdata]
      rw [hlen, hstack, List.take_left]
    refine yields_bind_of_ok (frameAt_of_getElem? (f := f) (by rw [hframes]; rfl)) ?_
    dsimp only
    rw [hdata, hframes, h.reachable]
    refine yields_bind_of_ok (debugAssert_true _ _) ?_
    rw [if_pos rfl]
    cases elseData with
    | noElse branchInst placeholder =>
      obtain ⟨rfl, heq⟩ := helse
      refine yields_bind_of_ok (blocktypeParamsResults_eq hty) ?_
      obtain ⟨-, types, htypes, -⟩ := hbase.frame.takes
      obtain ⟨elseBlock, b1, hnew, hbuilds1, helse, -⟩ :=
        blockWithParams_of_types t.builder t.stack (heq ▸ htypes)
      refine yields_bind_of_ok hnew ?_
      dsimp only
      have hredirect := Takes.redirect branchInst t.stack
        (hbase.frame.takes.mono hbuilds1.toExtends) (heq ▸ helse)
      have hseal := hredirect.trans (sealBlock_builds _ elseBlock)
      have hbuilds := hbuilds1.trans hseal
      refine yields_bind_of_ok rfl ⟨hbuilds.trans (switchToBlock_builds _ _), fun _ => ?_⟩
      unfold truncateStack
      dsimp only
      rw [hsize]
      exact lockstep_else hbase hdata hbelow hops1' false hbuilds.toExtends
        (helse.mono hseal.toExtends)
    | withElse elseBlock =>
      refine yields_bind_of_ok rfl ⟨switchToBlock_builds _ _, fun _ => ?_⟩
      unfold truncateStack
      dsimp only
      rw [hsize]
      exact lockstep_else hbase hdata hbelow hops1' false (.refl _) helse
  | @placeholder bases operands opsBelow ops f g fs control hops hbelow hheight hf =>
    obtain ⟨elseData, bt, hdata⟩ : ∃ elseData bt, f.data = .if_ elseData bt false none := by
      have hdata := hf.data
      generalize f.data = data at hdata
      cases hdata with
      | if_ => exact ⟨_, _, rfl⟩
      | block hkind' => exact absurd hkind hkind'
      | else_ hkind' =>
        rw [hkind] at hkind'
        cases hkind'
    have hops1' : v1.operands = opsBelow := by
      rw [hops1, hops, hheight, List.take_left]
    refine yields_bind_of_ok (frameAt_of_getElem? (f := f) (by rw [hframes]; rfl)) ?_
    dsimp only
    rw [hdata, hframes, h.reachable]
    refine yields_bind_of_ok (debugAssert_true _ _) ?_
    rw [if_neg Bool.false_ne_true]
    refine ⟨.refl _ _, fun _ => .dead rfl (.placeholder rfl (hops1' ▸ hbelow) rfl ?_)⟩
    exact ⟨hf.numParams, hf.size, hf.branched, .else_ rfl⟩

/-! ## The end of a frame -/

/-- Values above those of the innermost frame are of no matter where code is not reached. -/
theorem Layout.dead {b : FunctionBuilder Q} {stack : List ℕ} {tys : List ValType}
    {f : ControlStackFrame} {fs : List ControlStackFrame} {control : List Frame}
    (h : Layout env b bases stack tys (f :: fs) control) (ops : List (Option ValType)) :
    Dead env b stack bases (tys.map some ++ ops) (f :: fs) control := by
  obtain - | ⟨hstack, rfl, hbelow, hbase, -, -⟩ := h
  rw [List.map_append, List.append_assoc]
  exact .top hstack rfl hbelow hbase

theorem Dead.append {b : FunctionBuilder Q} {stack : List ℕ} {operands : List (Option ValType)}
    {frames : List ControlStackFrame} {control : List Frame}
    (h : Dead env b stack bases operands frames control) (ops : List (Option ValType)) :
    Dead env b stack bases (operands ++ ops) frames control := by
  cases control with
  | nil => cases h
  | cons g control => exact h.exchange (List.take_append_of_le_length h.height_le)

theorem Placeholder.sizeBefore {size : ℕ} {f : ControlStackFrame} {g : Frame}
    (h : Placeholder size f g) (hlt : size < 2 ^ 64) (debug : Bool) :
    f.sizeBefore debug = .ok size := by
  have hwrap : wrappingSub size 0 = size := by
    unfold wrappingSub
    omega
  have hdata := h.data
  unfold ControlStackFrame.sizeBefore
  rw [h.numParams, h.size, hwrap, decide_eq_true (Nat.zero_le _), debugAssert_true]
  generalize f.data = data at hdata
  cases hdata with
  | block | if_ | else_ => rfl

theorem unreached_end (h : Unreached env results bases t v)
    (hstep : step env.resources sig v .end_ = .ok v') :
    Yields (EnvFault env sig .end_)
      (fun t' => Simulates env results (bases.drop 1) t v' t' ∧ LeavesResults bases v.control t')
      (env.translateUnreachableOperator t .end_) := by
  obtain ⟨g, v1, h1, hcontrol, hops', -⟩ := stepEnd_cases hstep
  obtain ⟨hdead, hops1⟩ := unreached_popCtrl h h1
  have hc : v.control = g :: v1.control := by
    obtain ⟨_, _, hc, -, -, rfl⟩ := popCtrl_cases h1
    exact hc
  generalize hframes : t.controlStack = frames at hdead
  cases hdead with
  | @top bases below dup junk operands ops tys f g fs control hstack hops hbelow hbase =>
    have hops1' : v1.operands = tys.map some := by
      rw [hops1, hops, hbase.height, ← List.length_map some, List.take_left]
    have hlast : v1.control = [] → g.ty.results = results := by
      intro hnil
      refine h.function.outermost g ?_
      rw [hc, hnil]
      rfl
    have hbelow' : t.stack.take below.length = below := by
      rw [hstack, List.append_assoc, List.take_left]
    -- what follows is reached, with the parameters of its block
    have hreached : ∀ b, Builds t.stack t.builder b →
        Simulates env results bases t v' ⟨below ++ ((b.switchToBlock f.destination).sealBlock
            f.destination).blockParams f.destination, fs, true,
            (b.switchToBlock f.destination).sealBlock f.destination⟩
          ∧ LeavesResults (below :: bases) v.control ⟨below ++ ((b.switchToBlock
            f.destination).sealBlock f.destination).blockParams f.destination, fs, true,
            (b.switchToBlock f.destination).sealBlock f.destination⟩ := by
      intro b hb
      have hbuilds := (hb.trans (switchToBlock_builds _ f.destination)).trans
        (sealBlock_builds _ f.destination)
      have htakes := hbase.frame.takes.mono hbuilds.toExtends
      have hholds := htakes.holds h.types
      exact ⟨⟨hbuilds, fun _ => lockstep_end hbelow hops1' hcontrol hops' hlast hbuilds.toExtends
        htakes.1 hholds⟩, below, bases, g, _, _, rfl, hc, rfl, hholds.length.symm⟩
    -- or it is not, with the values below the frame
    have hunreached : ∀ b, Builds t.stack t.builder b →
        Simulates env results bases t v' ⟨below, fs, false, b⟩
          ∧ LeavesResults (below :: bases) v.control ⟨below, fs, false, b⟩ := by
      intro b hb
      refine ⟨⟨hb, fun _ => ?_⟩, below, bases, g, _, [], rfl, hc, (List.append_nil _).symm, rfl⟩
      have hlayout := hbelow.mono hb.toExtends
      cases fs with
      | nil =>
        generalize hv1 : v1.control = control1 at hlayout
        cases hlayout
        rw [hlast hv1, hops1'] at hops'
        exact .done rfl (hcontrol.trans hv1) hops' rfl
      | cons f' fs =>
        refine .dead rfl ?_
        rw [hops', hops1', hcontrol]
        exact hlayout.dead _
    refine yields_bind_of_ok (frameAt_of_getElem? (f := f) (by rw [hframes]; rfl))
      (yields_bind_of_ok (hbase.sizeBefore env.debug) ?_)
    unfold truncateStack pushn ControlStackFrame.followingCode
    dsimp only
    rw [hbelow', h.reachable, hframes]
    have hclosed : ∀ b (branched : Bool), Builds t.stack t.builder b →
        Yields (EnvFault env sig .end_)
          (fun t' => Simulates env results bases t v' t' ∧ LeavesResults (below :: bases) v.control t')
          (if branched then pure ⟨below ++ ((b.switchToBlock f.destination).sealBlock
              f.destination).blockParams f.destination, fs, true,
              (b.switchToBlock f.destination).sealBlock f.destination⟩
            else pure ⟨below, fs, false, b⟩) := by
      intro b branched hb
      split_ifs
      · exact hreached b hb
      · exact hunreached b hb
    cases f.data with
    | block => exact hclosed _ _ (.refl _ _)
    | loop header => exact hclosed _ _ (sealBlock_builds _ header)
    | if_ elseData bt headIsReachable ends =>
      cases ends with
      | none | some => exact hclosed _ _ (.refl _ _)
  | @placeholder bases operands opsBelow ops f g fs control hops hbelow hheight hf =>
    have hops1' : v1.operands = opsBelow := by
      rw [hops1, hops, hheight, List.take_left]
    have hdone : Simulates env results bases t v' ⟨t.stack, fs, false, t.builder⟩
        ∧ LeavesResults (t.stack :: bases) v.control ⟨t.stack, fs, false, t.builder⟩ := by
      refine ⟨⟨.refl _ _, fun _ => .dead rfl ?_⟩, t.stack, bases, g, _, [], rfl, hc,
        (List.append_nil _).symm, rfl⟩
      rw [hops', hops1', hcontrol]
      exact hbelow.append _
    refine yields_bind_of_ok (frameAt_of_getElem? (f := f) (by rw [hframes]; rfl))
      (yields_bind_of_ok (hf.sizeBefore h.fits env.debug) ?_)
    unfold truncateStack pushn
    dsimp only
    rw [List.take_length, h.reachable, hframes, hf.branched]
    have hdata := hf.data
    generalize f.data = data at hdata
    cases hdata with
    | block | if_ | else_ => exact hdone

end K23VM.Cranelift
