import K23VM.Proofs.LockstepRun

/-!
# The start of a body

Before the operators of a body there are a block with the parameters of the function, the block behind
its end, and a variable for each local.
-/

namespace K23VM.Cranelift

open Wasmparser FunctionBuilder FuncValidator

/-! ## Variables -/

section Variables

variable {Q : Type} {b b' : FunctionBuilder Q}

/-- Variables are declared and defined, and nothing else. -/
structure Declares (b : FunctionBuilder Q) (tys : List Ty) (b' : FunctionBuilder Q) : Prop where
  builds : Builds [] b b'
  vars : b'.vars = b.vars ++ tys
  position : b'.position = b.position
  numBlocks : b'.numBlocks = b.numBlocks

theorem Declares.refl (b : FunctionBuilder Q) : Declares b [] b :=
  ⟨.refl _ _, (List.append_nil _).symm, rfl, rfl⟩

theorem Declares.trans {b'' : FunctionBuilder Q} {tys tys' : List Ty} (h : Declares b tys b')
    (h' : Declares b' tys' b'') : Declares b (tys ++ tys') b'' :=
  ⟨h.builds.trans h'.builds, by rw [h'.vars, h.vars, List.append_assoc],
    h'.position.trans h.position, h'.numBlocks.trans h.numBlocks⟩

@[simp] theorem makeValues_vars (tys : List Ty) :
    ∀ b : FunctionBuilder Q, (b.makeValues tys).2.vars = b.vars := by
  induction tys with
  | nil => exact fun _ => rfl
  | cons ty tys ih => exact fun b => ih (b.makeValue ty).2

theorem newBlock_vars (b : FunctionBuilder Q) (tys : List Ty) :
    (b.createBlock.2.appendBlockParams b.numBlocks tys).vars = b.vars :=
  makeValues_vars tys b.createBlock.2

theorem declareVar (b : FunctionBuilder Q) (ty : Ty) :
    Declares b [ty] { b with vars := b.vars ++ [ty] } := by
  refine ⟨builds_of_blocks ⟨le_rfl, le_rfl, fun _ _ => rfl, fun _ _ => rfl, fun _ _ _ h => h, ?_, rfl,
    rfl⟩ rfl rfl, rfl, rfl, rfl⟩
  intro var ty' hvar
  rw [List.getElem?_append_left (List.getElem?_eq_some_iff.1 hvar).1]
  exact hvar

/-- A variable is declared and defined with a value of its type. -/
theorem declare_defVar {val : ℕ} (hval : val < b.numValues) :
    ∃ b', ({ b with vars := b.vars ++ [b.valueType val] } : FunctionBuilder Q).defVar b.vars.length val
        = .ok b' ∧ Declares b [b.valueType val] b' := by
  have hvar : ({ b with vars := b.vars ++ [b.valueType val] } : FunctionBuilder Q).vars[b.vars.length]?
      = some (b.valueType val) := List.getElem?_concat_length ..
  refine ⟨_, defVar_eq hvar, ?_⟩
  have hdeclare := declareVar b (b.valueType val)
  exact ⟨hdeclare.builds.trans (defVar_builds hvar hval), hdeclare.vars, rfl, rfl⟩

theorem declareParameters : ∀ {vals : List ℕ} {b : FunctionBuilder Q}, (∀ val ∈ vals, val < b.numValues) →
    ∃ b', vals.foldlM (fun b param =>
        { b with vars := b.vars ++ [b.valueType param] }.defVar b.vars.length param) b = .ok b'
      ∧ Declares b (vals.map b.valueType) b'
  | [], b, _ => ⟨b, rfl, .refl b⟩
  | val :: vals, b, h => by
    obtain ⟨hval, hvals⟩ := List.forall_mem_cons.1 h
    obtain ⟨b1, h1, hdeclare1⟩ := declare_defVar hval
    have hext := hdeclare1.builds.toExtends
    obtain ⟨b', hrest, hdeclare⟩ := declareParameters fun v hv => (hvals v hv).trans_le hext.values
    have htypes : vals.map b1.valueType = vals.map b.valueType :=
      List.map_congr_left fun v hv => hext.valueType v (hvals v hv)
    rw [htypes] at hdeclare
    refine ⟨b', ?_, hdeclare1.trans hdeclare⟩
    rw [List.foldlM_cons]
    exact bind_eq_ok.2 ⟨b1, h1, hrest⟩

/-- As many variables of one type as there are elements, which are defined if there is a value. -/
theorem declareAll {α : Type} {init : Option ℕ} {ty : Ty} : ∀ {l : List α} {b : FunctionBuilder Q},
    (∀ val ∈ init, b.Typed [val] [ty]) →
    l.foldlM (fun b _ => do
      let local_ := b.vars.length
      let b := { b with vars := b.vars ++ [ty] }
      match init with
      | some init => b.defVar local_ init
      | none => pure b) b = .ok b' → Declares b (List.replicate l.length ty) b'
  | [], b, _, h => by
    obtain rfl := Except.ok.inj h
    exact .refl b
  | a :: l, b, hinit, h => by
    rw [List.foldlM_cons] at h
    obtain ⟨b1, h1, h⟩ := bind_eq_ok.1 h
    have hdeclare1 : Declares b [ty] b1 := by
      cases init with
      | none =>
        obtain rfl := Except.ok.inj h1
        exact declareVar b ty
      | some val =>
        obtain ⟨hval, rfl⟩ := typed_singleton_iff.1 (hinit val rfl)
        obtain ⟨b2, h2, hdeclare⟩ := declare_defVar hval
        obtain rfl := Except.ok.inj (h2.symm.trans h1)
        exact hdeclare
    exact hdeclare1.trans (declareAll (fun val hval => (hinit val hval).mono hdeclare1.builds.toExtends) h)

end Variables

/-! ## Parameters and locals -/

section Locals

variable {P : Type} {env : FunctionEnvironment P} {sig : Signature P} {r : WasmModuleResources}
  {b b' : FunctionBuilder (P × List Entity)} {v v' : FuncValidator}

theorem declareWasmParameters_spec {entryBlock : ℕ} {tys : List Ty}
    (h : b.Typed (b.blockParams entryBlock) tys) :
    ∃ b', FunctionEnvironment.declareWasmParameters b entryBlock = .ok b'
      ∧ Declares b (tys.drop 2) b' := by
  rw [← h.2, ← List.map_drop]
  exact declareParameters fun val hval => h.1 val (List.mem_of_mem_drop hval)

theorem zero_declares (b : FunctionBuilder (P × List Entity)) (ty : Ty) :
    Declares b [] (b.ins ty .zero).2 :=
  ⟨ins_builds trivial rfl, (List.append_nil _).symm, rfl, rfl⟩

theorem declareLocals_spec {count : ℕ} {ty : ValType}
    (h : env.declareLocals b count ty = .ok b') :
    ∃ type, env.translation.valueType ty = .ok type ∧ Declares b (List.replicate count type) b' := by
  obtain ⟨type, htype, h⟩ := bind_eq_ok.1 h
  refine ⟨type, htype, ?_⟩
  have hzero := zero_declares b type
  have hinit : ∀ val ∈ some (b.ins type .zero).1, (b.ins type .zero).2.Typed [val] [type] := by
    rintro val ⟨⟩
    exact ins_typed b type .zero
  have hlength : (List.range count).length = count := List.length_range
  rw [← hlength]
  cases ty with
  | ref rt =>
    dsimp only at h
    split_ifs at h
    · obtain ⟨hty, -, h⟩ := bind_eq_ok.1 h
      obtain ⟨_, -, h⟩ := bind_eq_ok.1 h
      exact hzero.trans (declareAll hinit h)
    · have hnone : ∀ val ∈ (none : Option ℕ), b.Typed [val] [type] := fun val hval => nomatch hval
      exact declareAll hnone h
  | _ => exact hzero.trans (declareAll hinit h)

/-- The validator has the locals that variables were declared for. -/
theorem translateLocalDecls_spec : ∀ {decls : List (Validate (ℕ × ValType))} {v : FuncValidator}
    {b : FunctionBuilder (P × List Entity)},
    env.translateLocalDecls (bodyValidator r sig) v b decls
      = (.ok (.ok (v', b')) : Except Fault (Except Error _)) →
    ∃ tys types, v' = { v with locals := v.locals ++ tys }
      ∧ tys.mapM env.translation.valueType = .ok types ∧ Declares b types b'
  | [], v, b, h => by
    cases h
    exact ⟨[], [], by rw [List.append_nil], rfl, .refl _⟩
  | decl :: decls, v, b, h => by
    unfold FunctionEnvironment.translateLocalDecls at h
    obtain ⟨⟨count, ty⟩, -, h⟩ := fallible_bind_eq_ok.1 h
    obtain ⟨v1, h1, h⟩ := fallible_bind_eq_ok.1 h
    obtain ⟨b1, h2, h⟩ := fallible_bind_eq_ok.1 h
    obtain ⟨_, -, h1⟩ := bind_eq_ok.1 (orInvalid_eq_ok h1)
    cases h1
    obtain ⟨type, htype, hdeclare⟩ := declareLocals_spec (fallible_lift_eq_ok h2)
    obtain ⟨tys, types, hv', htypes, hdeclares⟩ := translateLocalDecls_spec h
    refine ⟨List.replicate count ty ++ tys, List.replicate count type ++ types, ?_, ?_,
      hdeclare.trans hdeclares⟩
    · rw [hv', List.append_assoc]
    · exact mapM_append_eq_ok.2 ⟨_, _, mapM_replicate_eq_ok htype count, htypes, rfl⟩

end Locals

/-! ## The first operator -/

section Start

variable {P V : Type}

/-- What `translateBody` does before the operators of the body. -/
def FunctionEnvironment.enterBody (env : FunctionEnvironment P) (validator : BodyValidator P V)
    (s : FuncTranslatorState) (b : FunctionBuilder (P × List Entity)) (params : List Ty) (v : V)
    (locals : List (Validate (ℕ × ValType))) :
    Fallible Error (V × FuncTranslatorState × FunctionBuilder (P × List Entity)) := do
  debugAssert env.translation.debug (b.numBlocks = 0) "Function must be empty"
  let (entryBlock, b) := b.createBlock
  let b := (b.appendBlockParams entryBlock params).switchToBlock entryBlock
  let b := b.sealBlock entryBlock
  let b ← (declareWasmParameters b entryBlock : Except Fault _)
  let (exitBlock, b) := b.createBlock
  let b := b.appendBlockParams exitBlock b.returns
  let s ← s.initializeState env.translation.debug b exitBlock
  let (v, b) ← env.translateLocalDecls validator v b locals
  pure (v, s, b)

theorem translateBody_eq (env : FunctionEnvironment P) (validator : BodyValidator P V)
    (s : FuncTranslatorState) (b : FunctionBuilder (P × List Entity)) (params : List Ty) (v : V)
    (body : FunctionBody P) :
    env.translateBody validator s b params v body
      = env.enterBody validator s b params v body.locals >>= fun start =>
        env.translateFunctionBody validator start.1 start.2.1 start.2.2 body.operators := by
  unfold FunctionEnvironment.translateBody FunctionEnvironment.enterBody
  simp only [bind_assoc, pure_bind]

/-- A function of the given type is translated into a builder of its signature with nothing in it. -/
structure BodyStart (env : TranslationEnvironment (P × List Entity)) (ty : FuncType)
    (s : FuncTranslatorState) (b : FunctionBuilder (P × List Entity)) (params : List Ty) : Prop where
  stack : s.stack = []
  controlStack : s.controlStack = []
  numBlocks : b.numBlocks = 0
  entry : b.entry = 0
  vars : b.vars = []
  signature : ∃ fty, env.types.convertFuncType ty = .ok fty
    ∧ wasmCallSignature env.pointerType fty = .ok ⟨params, b.returns⟩

variable {env : FunctionEnvironment P} {sig : Signature P} {s s' : FuncTranslatorState}
  {b b' : FunctionBuilder (P × List Entity)} {params : List Ty} {ty : FuncType} {v' : FuncValidator}
  {locals : List (Validate (ℕ × ValType))}

theorem pushBlock_of_empty {Q : Type} {t : FuncTranslationState Q} (debug : Bool)
    (destination numResults : ℕ) (h : t.stack = []) :
    t.pushBlock debug destination 0 numResults
      = .ok { t with
        controlStack := ⟨destination, 0, numResults, 0, false, .block⟩ :: t.controlStack } := by
  have hlt : t.stack.length < 2 ^ 64 := by
    rw [h]
    exact Nat.two_pow_pos 64
  have happend : t.stack = [] ++ [] := h
  exact pushBlock_of_stack t debug destination numResults happend hlt

theorem initializeState_eq {debug : Bool} {exitBlock : ℕ} (hstack : s.stack = [])
    (hcontrol : s.controlStack = []) (h : s.initializeState debug b exitBlock = .ok s') :
    s' = ⟨[], [⟨exitBlock, 0, b.returns.length, 0, false, .block⟩], true, .empty⟩ := by
  obtain ⟨stack, controlStack, reachable, entities⟩ := s
  subst hstack hcontrol
  unfold FuncTranslatorState.initializeState FuncTranslatorState.clear at h
  obtain ⟨s1, h1, h⟩ := bind_eq_ok.1 h
  obtain ⟨_, -, h1⟩ := bind_eq_ok.1 h1
  obtain ⟨_, -, h1⟩ := bind_eq_ok.1 h1
  cases h1
  rw [pushBlock_of_empty debug exitBlock b.returns.length rfl] at h
  exact (Except.ok.inj h).symm

/-- The first block has the parameters, whose variables come first. -/
theorem entryBlock_spec {b2 : FunctionBuilder (P × List Entity)} {pointerType : Ty} {tys : List Ty}
    (hentry : b.entry = b.numBlocks)
    (h : FunctionEnvironment.declareWasmParameters
      (((b.createBlock.2.appendBlockParams b.numBlocks (pointerType :: tys)).switchToBlock
        b.numBlocks).sealBlock b.numBlocks) b.numBlocks = .ok b2) :
    Builds [] b b2 ∧ b2.vars = b.vars ++ tys.drop 1 ∧ b2.HasVmctx pointerType
      ∧ b2.position < b2.numBlocks := by
  obtain ⟨hnew, htyped, hnum, -⟩ := newBlock_spec b [] (pointerType :: tys)
  have hvars := newBlock_vars b (pointerType :: tys)
  generalize b.createBlock.2.appendBlockParams b.numBlocks (pointerType :: tys) = b1
    at hnew htyped hnum hvars h
  have hseal : Builds [] b1 ((b1.switchToBlock b.numBlocks).sealBlock b.numBlocks) :=
    (switchToBlock_builds _ _).trans (sealBlock_builds _ _)
  have hlt : b.numBlocks < b1.numBlocks := (Nat.lt_succ_self _).trans_eq hnum.symm
  have hparams := hseal.params b.numBlocks hlt
  have htyped1 := htyped.mono hseal.toExtends
  rw [← hparams] at htyped1
  obtain ⟨b', hdeclare, hdeclares⟩ := declareWasmParameters_spec htyped1
  obtain rfl := Except.ok.inj (hdeclare.symm.trans h)
  have hbuilds := (hnew.trans hseal).trans hdeclares.builds
  refine ⟨hbuilds, ?_, HasVmctx.mono ⟨?_, ?_⟩ (hseal.trans hdeclares.builds).toExtends, ?_⟩
  · rw [hdeclares.vars]
    exact congrArg (· ++ _) hvars
  · rw [hnew.entry, hentry]
    exact hlt
  · rw [hnew.entry, hentry]
    obtain ⟨hlt', hmap⟩ := htyped
    cases hvals : b1.blockParams b.numBlocks with
    | nil =>
      rw [hvals] at hmap
      cases hmap
    | cons vmctx vals =>
      rw [hvals] at hlt' hmap
      refine ⟨vmctx, vals, rfl, typed_singleton_iff.2 ⟨hlt' vmctx List.mem_cons_self, ?_⟩⟩
      exact List.head_eq_of_cons_eq hmap
  · rw [hdeclares.position, hdeclares.numBlocks]
    exact hlt

/-- The frame of the function. -/
theorem inStep_start {Q : Type} {env : TranslationEnvironment Q} {b : FunctionBuilder Q}
    {exitBlock n : ℕ} {locals : List ValType} (ty : FuncType)
    (hfunction : FunctionOk env ty.results b { FuncValidator.new ty ty.params with locals })
    (htakes : Takes env b exitBlock ty.results) (hn : n = ty.results.length)
    (hpos : b.position < b.numBlocks) :
    InStep env ty.results [[]] ⟨[], [⟨exitBlock, 0, n, 0, false, .block⟩], true, b⟩
      { FuncValidator.new ty ty.params with locals } := by
  have hbase : Base env b [] [] [] ⟨exitBlock, 0, n, 0, false, .block⟩
      ⟨.block, ⟨[], ty.results⟩, 0, false, 0⟩ :=
    ⟨⟨htakes, rfl, hn, .block rfl⟩, rfl, rfl, Nat.two_pow_pos 64, rfl⟩
  exact ⟨hfunction, List.cons_ne_nil _ _, Nat.two_pow_pos 64, .live rfl hpos
    ⟨List.cons_ne_nil _ _, [], rfl, .cons rfl rfl .nil hbase rfl .nil⟩⟩

/-- Before the first operator the stacks agree. -/
theorem enterBody_spec (hstart : BodyStart env.translation ty s b params)
    (h : env.enterBody (bodyValidator env.translation.resources sig) s b params
        (FuncValidator.new ty ty.params) locals
      = (.ok (.ok (v', s', b')) : Except Fault (Except Error _))) :
    Builds [] b b' ∧ Cranelift.InStep env.translation ty.results [[]] (s'.withBuilder b') v'
      ∧ s'.entities = .empty ∧ v'.endWhichEmptiedControl = none := by
  obtain ⟨fty, hconvert, hsig⟩ := hstart.signature
  obtain ⟨hparams, hwasmParams, hreturns⟩ := wasmCallSignature_cases hconvert hsig
  unfold FunctionEnvironment.enterBody at h
  obtain ⟨_, -, h⟩ := fallible_bind_eq_ok.1 h
  obtain ⟨b2, h2, h⟩ := fallible_bind_eq_ok.1 h
  obtain ⟨s3, h3, h⟩ := fallible_bind_eq_ok.1 h
  obtain ⟨⟨v4, b4⟩, h4, h⟩ := fallible_bind_eq_ok.1 h
  cases h
  -- the first block and the parameters
  have hentry : b.entry = b.numBlocks := hstart.entry.trans hstart.numBlocks.symm
  dsimp only at hparams
  rw [hparams] at h2
  obtain ⟨hbuilds2, hvars2, hvmctx2, hpos2⟩ := entryBlock_spec hentry (fallible_lift_eq_ok h2)
  -- the block behind the end
  obtain ⟨hbuilds3, htyped3, hnum3, hpos3⟩ := newBlock_spec b2 [] b2.returns
  have hvars3 := newBlock_vars b2 b2.returns
  have hs := initializeState_eq hstart.stack hstart.controlStack (fallible_lift_eq_ok h3)
  obtain ⟨tys, types, rfl, htypes, hdeclares⟩ := translateLocalDecls_spec h4
  have hbuilds := hbuilds3.trans hdeclares.builds
  have hreturns2 : b2.returns = b.returns := hbuilds2.returns
  have hlt : b2.numBlocks < (b2.createBlock.2.appendBlockParams b2.numBlocks b2.returns).numBlocks :=
    (Nat.lt_succ_self _).trans_eq hnum3.symm
  have htakes : Takes env.translation b' b2.numBlocks ty.results := by
    refine Takes.mono ⟨hlt, b2.returns, ?_, htyped3⟩ hdeclares.builds.toExtends
    rw [hreturns2]
    exact hreturns
  have hfunction : FunctionOk env.translation ty.results b'
      { FuncValidator.new ty ty.params with locals := ty.params ++ tys } := by
    refine ⟨fun i vt hvt => ?_, ?_, ?_, hvmctx2.mono hbuilds.toExtends⟩
    · have hall : (ty.params ++ tys).mapM env.translation.valueType = .ok b'.vars := by
        refine mapM_append_eq_ok.2 ⟨_, types, hwasmParams, htypes, ?_⟩
        rw [hdeclares.vars]
        refine congrArg (· ++ types) (hvars3.trans ?_)
        rw [hvars2, hstart.vars]
        rfl
      exact mapM_getElem? hall hvt
    · rw [hbuilds.returns, hreturns2]
      exact hreturns
    · rintro g ⟨⟩
      rfl
  refine ⟨hbuilds2.trans hbuilds, ?_, by rw [hs], rfl⟩
  rw [hs]
  refine inStep_start ty hfunction htakes ?_ ?_
  · have hlength := mapM_ok_length hreturns
    rw [← hlength, ← hreturns2]
    exact congrArg List.length hbuilds3.returns
  · rw [hdeclares.position, hdeclares.numBlocks]
    exact (hpos3 ▸ hpos2).trans_le hbuilds3.blocks

end Start

end K23VM.Cranelift
