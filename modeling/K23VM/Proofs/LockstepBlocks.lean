import K23VM.Proofs.Lockstep

/-!
# Frames in lockstep

The operators that open, exchange and close frames, where code is reached and where it is not.  Below a
frame the values stay as they were before the operands that it takes, until it is closed.
-/

namespace K23VM.Wasmparser

/-- The number of operands that an operator takes for the frame it opens. -/
def WasmModuleResources.takenBy {P : Type} (r : WasmModuleResources) : Operator P → ℕ
  | .block bt | .loop bt => (r.blockTypes bt).elim 0 (·.params.length)
  | .if_ bt => (r.blockTypes bt).elim 0 (·.params.length) + 1
  | _ => 0

section

variable {P : Type} {r : WasmModuleResources} {bt : BlockType} {ty : FuncType}

theorem takenBy_block (h : r.blockTypes bt = some ty) :
    r.takenBy (.block bt : Operator P) = ty.params.length :=
  congrArg (fun x : Option FuncType => x.elim 0 (·.params.length)) h

theorem takenBy_loop (h : r.blockTypes bt = some ty) :
    r.takenBy (.loop bt : Operator P) = ty.params.length :=
  congrArg (fun x : Option FuncType => x.elim 0 (·.params.length)) h

theorem takenBy_if (h : r.blockTypes bt = some ty) :
    r.takenBy (.if_ bt : Operator P) = ty.params.length + 1 :=
  congrArg (fun x : Option FuncType => x.elim 0 (·.params.length) + 1) h

end

end K23VM.Wasmparser

namespace K23VM.Cranelift

open Wasmparser FunctionBuilder FuncTranslationState TranslationEnvironment FuncValidator

variable {Q : Type} {env : TranslationEnvironment Q} {sig : Signature Q}
  {t t' : FuncTranslationState Q} {v v' : FuncValidator} {results : List ValType}
  {bases : List (List ℕ)}

/-- The values below the frame that an operator opens; code that is not reached takes none. -/
def valuesBelow (r : WasmModuleResources) (reachable : Bool) (stack : List ℕ) (op : Operator Q) :
    List ℕ :=
  if reachable then stack.take (stack.length - r.takenBy op) else stack

/-- The values below each frame after an operator. -/
def nextBases (r : WasmModuleResources) (reachable : Bool) (stack : List ℕ) (op : Operator Q)
    (bases : List (List ℕ)) : List (List ℕ) :=
  if op.opens = 1 then valuesBelow r reachable stack op :: bases else bases.drop op.closes

theorem nextBases_opens {r : WasmModuleResources} {stack vals : List ℕ} {op : Operator Q}
    (hopens : op.opens = 1) (hn : r.takenBy op = vals.length) :
    nextBases r true (stack ++ vals) op bases = stack :: bases := by
  unfold nextBases valuesBelow
  rw [if_pos hopens, if_pos rfl, hn, List.length_append, Nat.add_sub_cancel, List.take_left]

/-! ## New frames -/

theorem blocktypeParamsResults_eq {bt : BlockType} {ty : FuncType}
    (h : env.resources.blockTypes bt = some ty) : env.blocktypeParamsResults bt = .ok ty := by
  cases bt with
  | empty | type =>
    cases h
    rfl
  | funcType index =>
    have hty := Option.join_eq_some_iff.1 h
    exact bind_eq_ok.2 ⟨some ty, unwrap_eq_ok.2 hty, rfl⟩

/-- A new block for values of types that are represented. -/
theorem blockWithParams_of_types (b : FunctionBuilder Q) (stack : List ℕ) {tys : List ValType}
    {types : List Ty} (htypes : tys.mapM env.valueType = .ok types) :
    ∃ block b', env.blockWithParams b tys = .ok (block, b') ∧ Builds stack b b'
      ∧ Takes env b' block tys ∧ b'.position = b.position := by
  obtain ⟨hbuilds, htyped, hnum, hpos⟩ := newBlock_spec b stack types
  refine ⟨_, _, bind_eq_ok.2 ⟨types, htypes, rfl⟩, hbuilds, ⟨?_, types, htypes, htyped⟩, hpos⟩
  exact (Nat.lt_succ_self _).trans_eq hnum.symm

/-- A new block for values of types of the block that an operator opens. -/
theorem blockWithParams_yields {op : Operator Q} {bt : BlockType} {fty : FuncType}
    (b : FunctionBuilder Q) (stack : List ℕ) (tys : List ValType)
    (hop : op = .block bt ∨ op = .loop bt ∨ op = .if_ bt)
    (hblock : env.resources.blockTypes bt = some fty) (hsub : tys ⊆ fty.params ++ fty.results) :
    Yields (EnvFault env sig op)
      (fun p => Builds stack b p.2 ∧ Takes env p.2 p.1 tys ∧ p.2.position = b.position)
      (env.blockWithParams b tys) := by
  cases htypes : tys.mapM env.valueType with
  | error e =>
    obtain ⟨ty, hmem, hty⟩ := exists_of_mapM_error htypes
    have herror : env.blockWithParams b tys = .error e := bind_eq_error.2 (.inl htypes)
    rw [herror]
    exact .valueType hop hblock (hsub hmem) hty
  | ok types =>
    obtain ⟨block, b', hnew, hspec⟩ := blockWithParams_of_types b stack htypes
    rw [hnew]
    exact hspec

theorem pushBlock_of_stack {stack vals : List ℕ} (t : FuncTranslationState Q) (debug : Bool)
    (destination numResults : ℕ) (h : t.stack = stack ++ vals) (hlt : t.stack.length < 2 ^ 64) :
    t.pushBlock debug destination vals.length numResults
      = .ok { t with controlStack :=
          ⟨destination, vals.length, numResults, stack.length, false, .block⟩ :: t.controlStack } := by
  have hle : vals.length ≤ t.stack.length := by
    rw [h, List.length_append]
    exact Nat.le_add_left _ _
  unfold pushBlock pushFrame
  rw [decide_eq_true hle, debugAssert_true, h, wrappingSub_append (h ▸ hlt)]
  rfl

theorem nextBases_reached {stack vals : List ℕ} {op : Operator Q} (hreachable : t.reachable = true)
    (hstack : t.stack = stack ++ vals) (hopens : op.opens = 1)
    (hn : env.resources.takenBy op = vals.length) :
    nextBases env.resources t.reachable t.stack op bases = stack :: bases := by
  rw [hreachable, hstack]
  exact nextBases_opens hopens hn

theorem simulates_block {bt : BlockType} (h : Reached env results bases t v)
    (hstep : step env.resources sig v (.block bt) = .ok v') :
    Yields (EnvFault env sig (.block bt))
      (Simulates env results (nextBases env.resources t.reachable t.stack (.block bt : Operator Q) bases)
        t v')
      (env.translateReachableOperator t (.block bt)) := by
  unfold step at hstep
  obtain ⟨ty, v1, hty, h1, rfl⟩ := stepOpen_cases hstep
  obtain ⟨stack, vals, hstack, hvals, -, tys, hops, hlayout⟩ := h.live.popOperands h.types h1
  rw [nextBases_reached h.reachable hstack rfl ((takenBy_block hty).trans hvals.length)]
  refine yields_bind_of_ok (blocktypeParamsResults_eq hty)
    ((blockWithParams_yields t.builder t.stack ty.results (.inl rfl) hty
      (List.subset_append_right _ _)).bind ?_)
  rintro ⟨next, b⟩ ⟨hbuilds, htakes, hpos⟩
  dsimp only at hbuilds htakes hpos ⊢
  rw [hvals.length, pushBlock_of_stack { t with builder := b } env.debug next ty.results.length hstack
    h.fits]
  refine ⟨hbuilds, fun hfits => .live h.reachable ?_ ?_⟩
  · exact hpos ▸ h.pos.trans_le hbuilds.blocks
  · have hbase : Base env b stack [] tys
        ⟨next, vals.length, ty.results.length, stack.length, false, .block⟩
        ⟨.block, ty, v1.operands.length, false, v1.inits.length⟩ := by
      refine ⟨⟨htakes, hvals.length.symm, rfl, .block rfl⟩, ?_, rfl, ?_, rfl⟩
      · rw [hops, List.length_map]
      · exact fits_of_append hstack h.fits
    have hlive := live_pushCtrl hops (hlayout.mono hbuilds.toExtends) hbase
      (hvals.mono hbuilds.toExtends)
    rw [List.append_nil, ← hstack] at hlive
    exact hlive

theorem pushLoop_of_stack {stack vals : List ℕ} (t : FuncTranslationState Q) (debug : Bool)
    (header destination numResults : ℕ) (h : t.stack = stack ++ vals) (hlt : t.stack.length < 2 ^ 64) :
    t.pushLoop debug header destination vals.length numResults
      = .ok { t with controlStack :=
          ⟨destination, vals.length, numResults, stack.length, false, .loop header⟩ :: t.controlStack } := by
  have hle : vals.length ≤ t.stack.length := by
    rw [h, List.length_append]
    exact Nat.le_add_left _ _
  unfold pushLoop pushFrame
  rw [decide_eq_true hle, debugAssert_true, h, wrappingSub_append (h ▸ hlt)]
  rfl

/-- The parameters of the header take the place of the operands. -/
theorem simulates_loop {bt : BlockType} (h : Reached env results bases t v)
    (hstep : step env.resources sig v (.loop bt) = .ok v') :
    Yields (EnvFault env sig (.loop bt))
      (Simulates env results (nextBases env.resources t.reachable t.stack (.loop bt : Operator Q) bases)
        t v')
      (env.translateReachableOperator t (.loop bt)) := by
  unfold step at hstep
  obtain ⟨ty, v1, hty, h1, rfl⟩ := stepOpen_cases hstep
  obtain ⟨stack, vals, hstack, hvals, -, tys, hops, hlayout⟩ := h.live.popOperands h.types h1
  rw [nextBases_reached h.reachable hstack rfl ((takenBy_loop hty).trans hvals.length)]
  refine yields_bind_of_ok (blocktypeParamsResults_eq hty)
    ((blockWithParams_yields t.builder t.stack ty.params (.inr (.inl rfl)) hty
      (List.subset_append_left _ _)).bind ?_)
  rintro ⟨header, b1⟩ ⟨hbuilds1, hheader, hpos1⟩
  refine (blockWithParams_yields b1 t.stack ty.results (.inr (.inl rfl)) hty
    (List.subset_append_right _ _)).bind ?_
  rintro ⟨next, b2⟩ ⟨hbuilds2, hnext, hpos2⟩
  dsimp only at hbuilds1 hheader hpos1 hbuilds2 hnext hpos2 ⊢
  have hbuilds12 := hbuilds1.trans hbuilds2
  have hpos : b2.position < b2.numBlocks := by
    rw [hpos2, hpos1]
    exact h.pos.trans_le hbuilds12.blocks
  have hjump : Builds t.stack b2 (b2.canonicaliseThenJump header vals) :=
    (hheader.mono hbuilds2.toExtends).jump (hvals.mono hbuilds12.toExtends) hpos
      (infix_of_append hstack)
  have hswitch := hjump.trans (switchToBlock_builds _ header)
  have hbuilds := hbuilds12.trans hswitch
  have hheader' := hheader.mono (hbuilds2.toExtends.trans hswitch.toExtends)
  rw [hvals.length]
  refine yields_bind_of_ok (peekn_of_stack hstack h.fits) (yields_bind_of_ok
    (pushLoop_of_stack { t with builder := b2.canonicaliseThenJump header vals } env.debug header next
      ty.results.length hstack h.fits) (yields_bind_of_ok (popn_of_stack hstack h.fits)
    ⟨hbuilds, fun _ => .live h.reachable hheader'.1 ?_⟩))
  have hbase : Base env ((b2.canonicaliseThenJump header vals).switchToBlock header) stack [] tys
      ⟨next, vals.length, ty.results.length, stack.length, false, .loop header⟩
      ⟨.loop, ty, v1.operands.length, false, v1.inits.length⟩ := by
    refine ⟨⟨hnext.mono hswitch.toExtends, hvals.length.symm, rfl, .loop rfl hheader'⟩, ?_, rfl, ?_, rfl⟩
    · rw [hops, List.length_map]
    · exact fits_of_append hstack h.fits
  have hlive := live_pushCtrl hops (hlayout.mono hbuilds.toExtends) hbase (hheader'.holds h.types)
  rwa [List.append_nil] at hlive

theorem pushIf_of_stack {stack vals : List ℕ} (t : FuncTranslationState Q) (debug : Bool)
    (destination numResults : ℕ) (elseData : ElseData) (bt : BlockType) (h : t.stack = stack ++ vals)
    (hlt : t.stack.length < 2 ^ 64) :
    t.pushIf debug destination elseData vals.length numResults bt
      = .ok { t with
        stack := t.stack ++ vals
        controlStack :=
          ⟨destination, vals.length, numResults, wrappingSub (t.stack ++ vals).length vals.length, false,
            .if_ elseData bt t.reachable none⟩ :: t.controlStack } := by
  have hle : vals.length ≤ t.stack.length := by
    rw [h, List.length_append]
    exact Nat.le_add_left _ _
  have hparams : t.stack.drop (wrappingSub t.stack.length vals.length) = vals := by
    rw [h, wrappingSub_append (h ▸ hlt), List.drop_left]
  unfold pushIf
  rw [decide_eq_true hle, debugAssert_true]
  dsimp only
  rw [hparams]
  rfl

/-- The branch at the head goes to the end, or to a block for the `else`. -/
theorem simulates_if {bt : BlockType} (h : Reached env results bases t v)
    (hstep : step env.resources sig v (.if_ bt) = .ok v') :
    Yields (EnvFault env sig (.if_ bt))
      (Simulates env results (nextBases env.resources t.reachable t.stack (.if_ bt : Operator Q) bases)
        t v')
      (env.translateReachableOperator t (.if_ bt)) := by
  obtain ⟨v1, h1, ty, v2, hty, h2, rfl⟩ := stepIf_cases hstep
  obtain ⟨stack1, val, hstack1, -, hlive1⟩ := h.live.popOperand h.types h1
  obtain ⟨stack, vals, rfl, hvals, -, tys, hops, hlayout⟩ := hlive1.popOperands h.types h2
  have hfits := fits_of_append hstack1 h.fits
  have hinfix : vals <:+: t.stack :=
    (infix_of_append rfl).trans (hstack1 ▸ (List.prefix_append _ _).isInfix)
  have hlen : env.resources.takenBy (.if_ bt : Operator Q) = (vals ++ [val]).length := by
    rw [takenBy_if hty, List.length_append, hvals.length]
    rfl
  rw [nextBases_reached h.reachable (hstack1.trans (List.append_assoc _ _ _)) rfl hlen]
  have hnext := createBlock_bare t.builder
  have hbuilds0 : Builds t.stack t.builder t.builder.createBlock.2 := createBlock_builds _
  refine yields_bind_of_ok (pop1_of_stack hstack1) (yields_bind_of_ok (blocktypeParamsResults_eq hty)
    ((blockWithParams_yields t.builder.createBlock.2 t.stack ty.results (.inr (.inr rfl)) hty
      (List.subset_append_right _ _)).bind ?_))
  rintro ⟨destination, b1⟩ ⟨hbuilds1, hdest, hpos1⟩
  dsimp only at hbuilds1 hdest hpos1 ⊢
  have hbuilds01 := hbuilds0.trans hbuilds1
  have hnext1 := hnext.mono hbuilds1.toExtends
  have hvals1 := hvals.mono hbuilds01.toExtends
  have hlt1 : b1.position < b1.numBlocks := by
    rw [hpos1]
    exact h.pos.trans_le hbuilds01.blocks
  -- the consequent starts in the new block, over the parameters and a copy of them
  have hopens : ∀ elseData b, Builds t.stack b1 b → ElseOk env b destination ty elseData →
      Yields (EnvFault env sig (.if_ bt))
        (Simulates env results (stack :: bases) t (v2.pushCtrl .if_ ty))
        (pushIf env.debug { t with
            stack := stack ++ vals
            builder := switchTo b t.builder.numBlocks }
          destination elseData ty.params.length ty.results.length bt) := by
    intro elseData b hb helse
    have hbuilds : Builds t.stack t.builder (switchTo b t.builder.numBlocks) :=
      switchTo_builds _ (hbuilds01.trans hb)
    have hswitch : Builds t.stack b (switchTo b t.builder.numBlocks) :=
      switchTo_builds _ (.refl _ _)
    have hb' := hb.trans hswitch
    rw [hvals.length, pushIf_of_stack { t with
      stack := stack ++ vals, builder := switchTo b t.builder.numBlocks } env.debug destination
      ty.results.length elseData bt rfl hfits]
    refine ⟨hbuilds, fun hlt => .live h.reachable (hnext1.mono hb.toExtends).1 ?_⟩
    have hsize : wrappingSub (stack ++ vals ++ vals).length vals.length = stack.length + vals.length :=
      (wrappingSub_append hlt).trans List.length_append
    have hbase : Base env (switchTo b t.builder.numBlocks) stack vals tys
        ⟨destination, vals.length, ty.results.length, wrappingSub (stack ++ vals ++ vals).length
          vals.length, false, .if_ elseData bt t.reachable none⟩
        ⟨.if_, ty, v2.operands.length, false, v2.inits.length⟩ := by
      refine ⟨⟨hdest.mono hb'.toExtends, hvals.length.symm, rfl, ?_⟩, ?_, hsize, ?_, ?_⟩
      · rw [h.reachable]
        exact .if_ rfl hty (helse.mono hswitch.toExtends)
      · rw [hops, List.length_map]
      · rw [hsize, ← List.length_append]
        exact hfits
      · exact hvals1.mono hb'.toExtends
    exact live_pushCtrl hops (hlayout.mono hbuilds.toExtends) hbase (hvals1.mono hb'.toExtends)
  have hpeek : ({ t with stack := stack ++ vals } : FuncTranslationState Q).peekn env.debug
      vals.length = .ok vals := peekn_of_stack rfl hfits
  split_ifs with heq
  · rw [← hvals.length] at hpeek
    refine yields_bind_of_ok hpeek (hopens _ _ ?_ ⟨rfl, heq⟩)
    exact hnext1.takes.brif val hdest .nil (heq ▸ hvals1) hlt1 List.nil_infix hinfix
  · refine (blockWithParams_yields b1 t.stack ty.params (.inr (.inr rfl)) hty
    (List.subset_append_left _ _)).bind ?_
    rintro ⟨elseBlock, b2⟩ ⟨hbuilds2, helse, hpos2⟩
    dsimp only at hbuilds2 helse hpos2 ⊢
    have hlt2 : b2.position < b2.numBlocks := by
      rw [hpos2]
      exact hlt1.trans_le hbuilds2.blocks
    have hbrif : Builds t.stack b2
        ((b2.canonicaliseBrif val t.builder.numBlocks [] elseBlock vals).sealBlock elseBlock) :=
      ((hnext1.mono hbuilds2.toExtends).takes.brif val helse .nil (hvals1.mono hbuilds2.toExtends) hlt2
        List.nil_infix hinfix).trans (sealBlock_builds _ _)
    rw [← hvals.length] at hpeek
    exact yields_bind_of_ok hpeek (hopens _ _ (hbuilds2.trans hbrif) (helse.mono hbrif.toExtends))

/-! ## The other branch of an `if` -/

/-- The edges of a branch are sent to a block that takes the same values. -/
theorem Takes.redirect {b : FunctionBuilder Q} {old new : ℕ} {tys : List ValType} (inst : ℕ)
    (stack : List ℕ) (hold : Takes env b old tys) (hnew : Takes env b new tys) :
    Builds stack b (b.changeJumpDestination inst old new) := by
  obtain ⟨-, types, htypes, htyped⟩ := hold
  obtain ⟨hlt, types', htypes', htyped'⟩ := hnew
  obtain rfl := Except.ok.inj (htypes.symm.trans htypes')
  exact changeJumpDestination_builds htyped htyped' hlt

section Else

variable {b b' : FunctionBuilder Q} {below dup : List ℕ} {tys : List ValType} {f : ControlStackFrame}
  {g : Frame} {elseData : ElseData} {bt : BlockType}

/-- The frame of an `if` whose consequent is being translated. -/
theorem Base.ifData (h : Base env b below dup tys f g) (hkind : g.kind = .if_) :
    ∃ elseData bt, f.data = .if_ elseData bt true none ∧ env.resources.blockTypes bt = some g.ty
      ∧ ElseOk env b f.destination g.ty elseData := by
  have hdata := h.frame.data
  generalize f.data = data at hdata
  cases hdata with
  | if_ _ hty helse => exact ⟨_, _, rfl, hty, helse⟩
  | block hkind' | loop hkind' | else_ hkind' =>
    rw [hkind] at hkind'
    cases hkind'

theorem Base.else_ (h : Base env b below dup tys f g) (hdata : f.data = .if_ elseData bt true none)
    (ends : Bool) (initHeight : ℕ) :
    Base env b below [] tys { f with data := .if_ elseData bt true (some ends) }
      ⟨.else_, g.ty, tys.length, false, initHeight⟩ := by
  refine ⟨⟨h.frame.takes, h.frame.numParams, h.frame.numReturns, .else_ rfl⟩, rfl, ?_, h.size_lt, rfl⟩
  rw [h.size]
  unfold ControlStackFrame.extra
  rw [hdata]

/-- The alternative starts with the copy of the parameters. -/
theorem lockstep_else {fs : List ControlStackFrame} {elseBlock : ℕ}
    (hbase : Base env b below dup tys f g) (hdata : f.data = .if_ elseData bt true none)
    (hlayout : Layout env b bases below tys fs v.control) (hops : v.operands = tys.map some)
    (ends : Bool) (hext : Extends b b') (htakes : Takes env b' elseBlock g.ty.params) :
    Lockstep env results (below :: bases)
      ⟨below ++ dup, { f with data := .if_ elseData bt true (some ends) } :: fs, true,
        b'.switchToBlock elseBlock⟩ (v.pushCtrl .else_ g.ty) := by
  have hdup := hbase.dup
  rw [hdata] at hdup
  have hheight : v.operands.length = tys.length := by rw [hops, List.length_map]
  have hbase' := (hbase.mono hext).else_ hdata ends v.inits.length
  rw [← hheight] at hbase'
  refine .live rfl htakes.1 ?_
  have hlive := live_pushCtrl hops (hlayout.mono hext) hbase' (hdup.mono hext)
  have hswitch : Builds [] b' (b'.switchToBlock elseBlock) := switchToBlock_builds _ _
  rw [List.append_nil] at hlive
  exact hlive.mono hswitch.toExtends

end Else

theorem simulates_else (h : Reached env results bases t v)
    (hstep : step env.resources sig v .else_ = .ok v') :
    Yields (EnvFault env sig .else_) (Simulates env results bases t v')
      (env.translateReachableOperator t .else_) := by
  obtain ⟨g, v1, h1, hkind, rfl⟩ := stepElse_cases hstep
  obtain ⟨f, fs, below, bases', dup, vals, tys, hframes, rfl, hstack, hbase, hvals, hops, hlayout⟩ :=
    h.live.popCtrl h.types h1
  obtain ⟨elseData, bt, hdata, hty, helse⟩ := hbase.ifData hkind
  have hlen : f.numReturnValues = vals.length := hbase.frame.numReturns.trans hvals.length
  refine yields_bind_of_ok (frameAt_of_getElem? (f := f) (by rw [hframes]; rfl)) ?_
  dsimp only
  rw [hdata, hframes, h.reachable]
  refine yields_bind_of_ok (debugAssert_true _ _) ?_
  rw [if_pos rfl]
  cases elseData with
  | noElse branchInst placeholder =>
    obtain ⟨rfl, heq⟩ := helse
    have hparams : g.ty.params.length = vals.length := heq ▸ hvals.length
    refine yields_bind_of_ok (blocktypeParamsResults_eq hty) ?_
    rw [hparams, hlen, decide_eq_true rfl]
    refine yields_bind_of_ok (debugAssert_true _ _) ?_
    obtain ⟨-, types, htypes, -⟩ := hbase.frame.takes
    obtain ⟨elseBlock, b1, hnew, hbuilds1, helse, hpos1⟩ :=
      blockWithParams_of_types t.builder t.stack (heq ▸ htypes)
    refine yields_bind_of_ok hnew ?_
    dsimp only
    have hdest := hbase.frame.takes.mono hbuilds1.toExtends
    have hpos : b1.position < b1.numBlocks := by
      rw [hpos1]
      exact h.pos.trans_le hbuilds1.blocks
    have hjump : Builds t.stack b1 (b1.canonicaliseThenJump f.destination vals) :=
      hdest.jump (hvals.mono hbuilds1.toExtends) hpos (infix_of_append hstack)
    have hredirect := Takes.redirect branchInst t.stack (hdest.mono hjump.toExtends)
      (heq ▸ helse.mono hjump.toExtends)
    have hbuilds := ((hbuilds1.trans hjump).trans hredirect).trans (sealBlock_builds _ elseBlock)
    have helse' := helse.mono
      ((hjump.trans hredirect).trans (sealBlock_builds _ elseBlock)).toExtends
    refine yields_bind_of_ok (jumpWith_of_stack _ env.debug f.destination hstack h.fits)
      (yields_bind_of_ok rfl ⟨hbuilds.trans (switchToBlock_builds _ _), fun _ => ?_⟩)
    exact lockstep_else hbase hdata hlayout hops true hbuilds.toExtends helse'
  | withElse elseBlock =>
    have hbuilds : Builds t.stack t.builder (t.builder.canonicaliseThenJump f.destination vals) :=
      hbase.frame.takes.jump hvals h.pos (infix_of_append hstack)
    rw [hlen]
    refine yields_bind_of_ok (jumpWith_of_stack _ env.debug f.destination hstack h.fits)
      (yields_bind_of_ok rfl ⟨hbuilds.trans (switchToBlock_builds _ _), fun _ => ?_⟩)
    exact lockstep_else hbase hdata hlayout hops true hbuilds.toExtends (Takes.mono helse hbuilds.toExtends)

/-! ## The end of a frame -/

/-- Above the values below the frame that was closed are its results, if what follows is reached. -/
def LeavesResults (bases : List (List ℕ)) (control : List Frame) (t' : FuncTranslationState Q) : Prop :=
  ∃ below bases' g outer vals, bases = below :: bases' ∧ control = g :: outer
    ∧ t'.stack = below ++ vals
    ∧ if t'.reachable then vals.length = g.ty.results.length else vals = []

/-- What is reached after an `end` has the results of the frame. -/
theorem lockstep_end {b b' : FunctionBuilder Q} {below vals : List ℕ} {tys : List ValType}
    {fs : List ControlStackFrame} {ty : FuncType} {v1 : FuncValidator}
    (hlayout : Layout env b bases below tys fs v1.control) (hops : v1.operands = tys.map some)
    (hcontrol : v'.control = v1.control) (hops' : v'.operands = v1.operands ++ ty.results.map some)
    (houtermost : v1.control = [] → ty.results = results) (hext : Extends b b')
    (hpos : b'.position < b'.numBlocks) (hvals : Holds env b' ty.results vals) :
    Lockstep env results bases ⟨below ++ vals, fs, true, b'⟩ v' := by
  cases fs with
  | nil =>
    cases hc : v1.control with
    | nil =>
      rw [hc] at hlayout
      cases hlayout
      rw [houtermost hc, hops] at hops'
      exact .done rfl (hcontrol.trans hc) hops' ⟨hpos, houtermost hc ▸ hvals⟩
    | cons g control =>
      rw [hc] at hlayout
      cases hlayout
  | cons f fs =>
    refine .live rfl hpos ⟨List.cons_ne_nil _ _, tys ++ ty.results, ?_, ?_⟩
    · rw [hops', hops, List.map_append]
    · cases hc : v1.control with
      | nil =>
        rw [hc] at hlayout
        cases hlayout
      | cons g control =>
        rw [hcontrol, hc]
        rw [hc] at hlayout
        exact (hlayout.mono hext).push hvals

theorem simulates_end (h : Reached env results bases t v)
    (hstep : step env.resources sig v .end_ = .ok v') :
    Yields (EnvFault env sig .end_)
      (fun t' => Simulates env results (bases.drop 1) t v' t' ∧ LeavesResults bases v.control t')
      (env.translateReachableOperator t .end_) := by
  obtain ⟨g, v1, h1, hcontrol, hops', -⟩ := stepEnd_cases hstep
  obtain ⟨f, fs, below, bases', dup, vals, tys, hframes, rfl, hstack, hbase, hvals, hops, hlayout⟩ :=
    h.live.popCtrl h.types h1
  have hc : v.control = g :: v1.control := by
    obtain ⟨_, _, hc, -, -, rfl⟩ := popCtrl_cases h1
    exact hc
  have hjump : Builds t.stack t.builder (t.builder.canonicaliseThenJump f.destination vals) :=
    hbase.frame.takes.jump hvals h.pos (infix_of_append hstack)
  have hseal := (hjump.trans (switchToBlock_builds _ f.destination)).trans
    (sealBlock_builds _ f.destination)
  have htakes := hbase.frame.takes.mono hseal.toExtends
  have hpeek : ({ t with controlStack := t.controlStack.tail } : FuncTranslationState Q).peekn env.debug
      vals.length = .ok vals := peekn_of_stack hstack h.fits
  have hbelow : t.stack.take below.length = below := by
    rw [hstack, List.append_assoc, List.take_left]
  have hlast : v1.control = [] → v.control.getLast? = some g := by
    intro hnil
    rw [hc, hnil]
    rfl
  -- the header of a loop is sealed besides
  have hclosed : ∀ b, Builds t.stack
      (((t.builder.canonicaliseThenJump f.destination vals).switchToBlock f.destination).sealBlock
        f.destination) b → b.position = f.destination →
      Simulates env results bases' t v' ⟨below ++ b.blockParams f.destination, fs, true, b⟩
        ∧ LeavesResults (below :: bases') v.control
          ⟨below ++ b.blockParams f.destination, fs, true, b⟩ := by
    intro b hb hpos
    have hbuilds := hseal.trans hb
    have htakes' := htakes.mono hb.toExtends
    have hholds := htakes'.holds h.types
    refine ⟨⟨hbuilds, fun _ => lockstep_end hlayout hops hcontrol hops' (fun hnil => ?_)
      hbuilds.toExtends (hpos ▸ htakes'.1) hholds⟩, below, bases', g, _, _, rfl, hc, rfl,
      hholds.length.symm⟩
    exact h.function.outermost g (hlast hnil)
  refine yields_bind_of_ok (frameAt_of_getElem? (f := f) (by rw [hframes]; rfl)) ?_
  dsimp only
  rw [hbase.frame.numReturns, hvals.length]
  refine yields_bind_of_ok hpeek (yields_bind_of_ok (hbase.sizeBefore env.debug) ?_)
  unfold truncateStack pushn
  dsimp only
  rw [hbelow, h.reachable, hframes]
  cases f.data with
  | loop header => exact hclosed _ (sealBlock_builds _ header) rfl
  | block | if_ => exact hclosed _ (.refl _ _) rfl

end K23VM.Cranelift
