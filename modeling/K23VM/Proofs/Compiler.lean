import K23VM.Cranelift.Compiler
import K23VM.Proofs.ControlStack
import K23VM.Proofs.FuncValidator

/-!
# The pool of contexts is not observed

A context is only put back where a job has finished.  Then the validator has accepted the body, so that
its control stack is empty, and with it the translator's, which is never higher.  What is left of the
function are its entities, and these are cleared before the next one.
-/

namespace K23VM.Cranelift

open Wasmparser Compile

variable {P V A : Type} {env : FunctionEnvironment P} {validator : BodyValidator P V} {height : V → ℕ}

/-! ## The state after a body -/

section Body

variable {s s' : FuncTranslatorState} {b b' : FunctionBuilder (P × List Entity)}

/-- To ask for an entity changes nothing but the entities. -/
theorem getEntities_withBuilder : ∀ {indices : List EntityIndex} {s : FuncTranslatorState}
    {entities : List Entity}, s.getEntities env b indices = .ok (entities, s') →
      s'.withBuilder b = s.withBuilder b
  | [], _, _, h => by cases h; rfl
  | index :: indices, s, _, h => by
    unfold FuncTranslatorState.getEntities at h
    obtain ⟨⟨entity, entities⟩, -, h⟩ := bind_eq_ok.1 h
    obtain ⟨⟨rest, s1⟩, h1, h⟩ := bind_eq_ok.1 h
    cases h
    have h2 := getEntities_withBuilder h1
    exact h2

theorem map_opens {Q : Type} (f : P → Q) (op : Operator P) : (op.map f).opens = op.opens := by
  cases op <;> rfl

theorem map_closes {Q : Type} (f : P → Q) (op : Operator P) : (op.map f).closes = op.closes := by
  cases op <;> rfl

/-- An operator is the same with its entities, and the state is but for them. -/
theorem withEntities_eq_ok {op : Operator P} {op' : Operator (P × List Entity)}
    (h : env.withEntities s b op = .ok (op', s')) :
    s'.withBuilder b = s.withBuilder b ∧ ∃ entities, op' = op.map fun p => (p, entities) := by
  unfold FunctionEnvironment.withEntities at h
  split at h
  case h_6 =>
    cases h
    exact ⟨rfl, _, rfl⟩
  all_goals
    split_ifs at h
    · obtain ⟨_, -, h⟩ := bind_eq_ok.1 h
      obtain ⟨⟨entities, s1⟩, h1, h⟩ := bind_eq_ok.1 h
      cases h
      exact ⟨getEntities_withBuilder h1, entities, rfl⟩
    · cases h
      exact ⟨rfl, _, rfl⟩

/-- The translation of an operator of a body. -/
theorem translateOperator_eq_ok {op : Operator P}
    (h : env.translateOperator s b op = (.ok (.ok (s', b')) : Except Fault (Except Error _))) :
    ∃ entities, env.translation.translateOperator (s.withBuilder b) (op.map fun p => (p, entities))
      = (.ok (.ok (s'.withBuilder b')) : Except Fault (Except Error _)) := by
  unfold FunctionEnvironment.translateOperator at h
  obtain ⟨⟨op', s1⟩, h1, h⟩ := fallible_bind_eq_ok.1 h
  obtain ⟨hs, entities, rfl⟩ := withEntities_eq_ok (fallible_lift_eq_ok h1)
  obtain ⟨t, h2, h⟩ := fallible_bind_eq_ok.1 h
  cases h
  rw [hs] at h2
  exact ⟨entities, h2⟩

theorem translateOperator_length {op : Operator P}
    (h : env.translateOperator s b op = (.ok (.ok (s', b')) : Except Fault (Except Error _))) :
    s'.controlStack.length + op.closes = s.controlStack.length + op.opens := by
  obtain ⟨entities, h1⟩ := translateOperator_eq_ok h
  have h2 := TranslationEnvironment.translateOperator_length h1
  rw [map_opens, map_closes] at h2
  exact h2

theorem orInvalid_eq_ok {α : Type} {x : Validate α} {a : α}
    (h : orInvalid x = (.ok (.ok a) : Except Fault (Except Error α))) : x = .ok a := by
  cases x with
  | error e => cases h
  | ok a' =>
    cases h
    rfl

/-- The translator's control stack is at most as high as the validator's. -/
theorem translateOperators_length_le (hv : validator.Lawful height) :
    ∀ {ops : List (Validate (Operator P))} {v v' : V} {s : FuncTranslatorState}
      {b : FunctionBuilder (P × List Entity)},
      env.translateOperators validator v s b ops
        = (.ok (.ok (v', s', b')) : Except Fault (Except Error _)) →
      s.controlStack.length ≤ height v → s'.controlStack.length ≤ height v'
  | [], _, _, _, _, h, hle => by
    cases h
    exact hle
  | op :: ops, v, v', s, b, h, hle => by
    unfold FunctionEnvironment.translateOperators at h
    obtain ⟨op, -, h⟩ := fallible_bind_eq_ok.1 h
    obtain ⟨⟨s1, b1⟩, h1, h⟩ := fallible_bind_eq_ok.1 h
    obtain ⟨v1, h2, h⟩ := fallible_bind_eq_ok.1 h
    refine translateOperators_length_le hv h ?_
    have hs := translateOperator_length h1
    have hheight := hv.op (orInvalid_eq_ok h2)
    omega

/-- A body that is accepted leaves both stacks empty. -/
theorem translateFunctionBody_stacks (hv : validator.Lawful height) {v : V}
    {ops : List (Validate (Operator P))}
    (h : env.translateFunctionBody validator v s b ops
      = (.ok (.ok (s', b')) : Except Fault (Except Error _)))
    (hle : s.controlStack.length ≤ height v) : s'.stack = [] ∧ s'.controlStack = [] := by
  unfold FunctionEnvironment.translateFunctionBody at h
  obtain ⟨_, -, h⟩ := fallible_bind_eq_ok.1 h
  obtain ⟨⟨v1, s1, b1⟩, h1, h⟩ := fallible_bind_eq_ok.1 h
  obtain ⟨_, h2, h⟩ := fallible_bind_eq_ok.1 h
  have hlen := translateOperators_length_le hv h1 hle
  rw [hv.finish (orInvalid_eq_ok h2), Nat.le_zero, List.length_eq_zero_iff] at hlen
  dsimp only at h
  split_ifs at h
  · obtain ⟨⟨args, b2⟩, -, h⟩ := fallible_bind_eq_ok.1 h
    cases h
    exact ⟨rfl, hlen⟩
  · cases h
    exact ⟨rfl, hlen⟩

theorem translateLocalDecls_height (hv : validator.Lawful height) :
    ∀ {decls : List (Validate (ℕ × ValType))} {v v' : V} {b : FunctionBuilder (P × List Entity)},
      env.translateLocalDecls validator v b decls
        = (.ok (.ok (v', b')) : Except Fault (Except Error _)) → height v' = height v
  | [], _, _, _, h => by cases h; rfl
  | decl :: decls, v, v', b, h => by
    unfold FunctionEnvironment.translateLocalDecls at h
    obtain ⟨⟨count, ty⟩, -, h⟩ := fallible_bind_eq_ok.1 h
    obtain ⟨v1, h1, h⟩ := fallible_bind_eq_ok.1 h
    obtain ⟨b1, -, h⟩ := fallible_bind_eq_ok.1 h
    exact (translateLocalDecls_height hv h).trans (hv.defineLocals (orInvalid_eq_ok h1))

theorem initializeState_length {debug : Bool} {exitBlock : ℕ}
    (h : s.initializeState debug b exitBlock = .ok s') :
    s'.controlStack.length = s.controlStack.length + 1 := by
  unfold FuncTranslatorState.initializeState FuncTranslatorState.clear at h
  obtain ⟨s1, h1, h⟩ := bind_eq_ok.1 h
  obtain ⟨_, -, h1⟩ := bind_eq_ok.1 h1
  obtain ⟨_, -, h1⟩ := bind_eq_ok.1 h1
  cases h1
  obtain ⟨t, h2, h⟩ := bind_eq_ok.1 h
  cases h
  have h3 := FuncTranslationState.pushBlock_length h2
  exact h3

theorem translateBody_stacks (hv : validator.Lawful height) {params : List Ty} {v : V}
    {body : FunctionBody P}
    (h : env.translateBody validator s b params v body
      = (.ok (.ok (s', b')) : Except Fault (Except Error _)))
    (hs : s.controlStack = []) (hheight : height v = 1) : s'.stack = [] ∧ s'.controlStack = [] := by
  unfold FunctionEnvironment.translateBody at h
  obtain ⟨_, -, h⟩ := fallible_bind_eq_ok.1 h
  obtain ⟨b1, -, h⟩ := fallible_bind_eq_ok.1 h
  obtain ⟨s1, h1, h⟩ := fallible_bind_eq_ok.1 h
  obtain ⟨⟨v1, b2⟩, h2, h⟩ := fallible_bind_eq_ok.1 h
  refine translateFunctionBody_stacks hv h ?_
  rw [initializeState_length (fallible_lift_eq_ok h1), translateLocalDecls_height hv h2, hs, hheight]
  rfl

/-- With empty stacks a state is as a new one once it is cleared. -/
theorem initializeState_eq_new (hstack : s.stack = []) (hcontrol : s.controlStack = []) (debug : Bool)
    (b : FunctionBuilder (P × List Entity)) (exitBlock : ℕ) :
    s.initializeState debug b exitBlock = FuncTranslatorState.new.initializeState debug b exitBlock := by
  obtain ⟨stack, controlStack, reachable, entities⟩ := s
  subst hstack hcontrol
  rfl

theorem translateBody_eq_new (hstack : s.stack = []) (hcontrol : s.controlStack = [])
    (params : List Ty) (v : V) (body : FunctionBody P) :
    env.translateBody validator s b params v body
      = env.translateBody validator .new b params v body := by
  unfold FunctionEnvironment.translateBody
  simp only [initializeState_eq_new hstack hcontrol]

end Body

/-! ## Contexts -/

section Contexts

variable {g : Codegen (P × List Entity)} {c : CraneliftCompiler g A}

/-- What comes of a computation with a context. -/
def outcome (x : Fallible Error (CompiledFunction × CompilationContext g A)) : Outcome :=
  Except.map (Except.map Prod.fst) x

/-- The compiler with an empty pool. -/
def CraneliftCompiler.emptied (c : CraneliftCompiler g A) : CraneliftCompiler g A :=
  { c with contexts := [] }

theorem finish_outcome {ctx ctx' : CompilationContext g A} (h : ctx.codegenContext = ctx'.codegenContext)
    (body : Option (FunctionBody P)) : outcome (c.finish ctx body) = outcome (c.finish ctx' body) := by
  unfold CraneliftCompiler.finish
  rw [h]
  rcases g.compile ctx'.codegenContext with e | e | ⟨compiled, context⟩
  · rfl
  · rfl
  cases body with
  | none => rfl
  | some body =>
    dsimp only [fallible_ok_bind]
    cases toU32 body.originalPosition with
    | error e => rfl
    | ok start => cases toU32 (body.originalPosition + body.bytesRemaining) <;> rfl

theorem finish_eq_ok (hg : g.Restores) {ctx ctx' : CompilationContext g A}
    {body : Option (FunctionBody P)} {function : CompiledFunction}
    (h : c.finish ctx body = (.ok (.ok (function, ctx')) : Except Fault (Except Error _))) :
    ctx' = { ctx with codegenContext := g.newContext } := by
  unfold CraneliftCompiler.finish at h
  obtain ⟨⟨compiled, context⟩, -, h⟩ := fallible_bind_eq_ok.1 h
  dsimp only at h
  rw [hg.clear] at h
  cases body with
  | none =>
    cases h
    rfl
  | some body =>
    obtain ⟨_, -, h⟩ := fallible_bind_eq_ok.1 h
    obtain ⟨_, -, h⟩ := fallible_bind_eq_ok.1 h
    cases h
    rfl

theorem finalizeAndFinish_outcome {ctx ctx' : CompilationContext g A}
    (h : ctx.codegenContext = ctx'.codegenContext) (func : g.Function)
    (b : FunctionBuilder (P × List Entity)) (s s' : FuncTranslatorState)
    (body : Option (FunctionBody P)) :
    outcome (c.finalizeAndFinish ctx func b s body)
      = outcome (c.finalizeAndFinish ctx' func b s' body) := by
  unfold CraneliftCompiler.finalizeAndFinish
  rw [h]
  cases g.finalize func b with
  | error e => rfl
  | ok f =>
    rw [fallible_lift_ok_bind, fallible_lift_ok_bind]
    apply finish_outcome
    rfl

variable [Inhabited A]

/-- A context in which nothing is left that the next function can observe. -/
structure CompilationContext.Clean (ctx : CompilationContext g A) : Prop where
  stack : ctx.funcTranslator.state.stack = []
  controlStack : ctx.funcTranslator.state.controlStack = []
  /-- The signatures, functions, tables, memories and globals that are left are not seen. -/
  entities : ∀ debug (b : FunctionBuilder (P × List Entity)) exitBlock,
    ctx.funcTranslator.state.initializeState debug b exitBlock
      = FuncTranslatorState.new.initializeState debug b exitBlock
  funcCtx : ctx.funcTranslator.funcCtx = g.newBuilderContext
  validatorAllocations : ctx.validatorAllocations = default

theorem finalizeAndFinish_clean (hg : g.Restores) {ctx ctx' : CompilationContext g A}
    {func : g.Function} {b : FunctionBuilder (P × List Entity)} {s : FuncTranslatorState}
    {body : Option (FunctionBody P)} {function : CompiledFunction}
    (h : c.finalizeAndFinish ctx func b s body
      = (.ok (.ok (function, ctx')) : Except Fault (Except Error _)))
    (hstack : s.stack = []) (hcontrol : s.controlStack = [])
    (halloc : ctx.validatorAllocations = default) : ctx'.Clean := by
  unfold CraneliftCompiler.finalizeAndFinish at h
  obtain ⟨⟨func', funcCtx⟩, h1, h⟩ := fallible_bind_eq_ok.1 h
  obtain rfl := finish_eq_ok hg h
  exact
    { stack := hstack
      controlStack := hcontrol
      entities := initializeState_eq_new hstack hcontrol
      funcCtx := hg.finalize (fallible_lift_eq_ok h1)
      validatorAllocations := halloc }

/-- A new context, but for the state of the translator. -/
def CompilationContext.withState (s : FuncTranslatorState) : CompilationContext g A :=
  ⟨⟨g.newBuilderContext, s⟩, g.newContext, default⟩

/-- What a job does with a context: it does not observe what a function has left in the state, and leaves
nothing itself. -/
structure Unobserving
    (job : CompilationContext g A → Fallible Error (CompiledFunction × CompilationContext g A)) :
    Prop where
  outcome_eq : ∀ {s : FuncTranslatorState}, s.stack = [] → s.controlStack = [] →
    outcome (job (.withState s)) = outcome (job .new)
  clean : ∀ {s : FuncTranslatorState} {function : CompiledFunction} {ctx : CompilationContext g A},
    s.stack = [] → s.controlStack = [] →
    job (.withState s) = (.ok (.ok (function, ctx)) : Except Fault (Except Error _)) → ctx.Clean

/-- What is meant by a pool that is not observed, for one job: its outcome `x.1` is that on an empty
pool, and it leaves clean contexts and the same target. -/
structure PoolUnobserved (c : CraneliftCompiler g A)
    (compile : CraneliftCompiler g A → Outcome × CraneliftCompiler g A) : Prop where
  outcome_eq : (compile c).1 = (compile c.emptied).1
  clean : ∀ ctx ∈ (compile c).2.contexts, ctx.Clean
  emptied : (compile c).2.emptied = c.emptied

theorem functionCompiler_clean (hg : g.Restores) (hc : ∀ ctx ∈ c.contexts, ctx.Clean) :
    ∃ s : FuncTranslatorState, s.stack = [] ∧ s.controlStack = []
      ∧ c.functionCompiler = (.withState s, { c with contexts := c.contexts.tail }) := by
  obtain ⟨pointerType, functionAlignment, offsets, contexts⟩ := c
  cases contexts with
  | nil => exact ⟨.new, rfl, rfl, rfl⟩
  | cons ctx contexts =>
    have hctx : ctx.Clean := hc ctx List.mem_cons_self
    obtain ⟨⟨funcCtx, s⟩, codegenContext, validatorAllocations⟩ := ctx
    obtain rfl : funcCtx = _ := hctx.funcCtx
    obtain rfl : validatorAllocations = _ := hctx.validatorAllocations
    refine ⟨s, hctx.stack, hctx.controlStack, ?_⟩
    unfold CraneliftCompiler.functionCompiler
    dsimp only
    rw [hg.clear]
    rfl

theorem withFunctionCompiler_fst
    (job : CompilationContext g A → Fallible Error (CompiledFunction × CompilationContext g A)) :
    (c.withFunctionCompiler job).1 = outcome (job c.functionCompiler.1) := by
  unfold CraneliftCompiler.withFunctionCompiler
  rcases c.functionCompiler with ⟨ctx, c⟩
  dsimp only
  rcases job ctx with e | e | ⟨function, ctx⟩ <;> rfl

/-- The pool after a job: what was left of it, and the context of the job if that has finished. -/
theorem withFunctionCompiler_snd
    (job : CompilationContext g A → Fallible Error (CompiledFunction × CompilationContext g A)) :
    ∃ contexts, (c.withFunctionCompiler job).2 = { c.functionCompiler.2 with contexts }
      ∧ ∀ ctx ∈ contexts, ctx ∈ c.functionCompiler.2.contexts
        ∨ ∃ function, job c.functionCompiler.1
            = (.ok (.ok (function, ctx)) : Except Fault (Except Error _)) := by
  unfold CraneliftCompiler.withFunctionCompiler
  rcases c.functionCompiler with ⟨ctx, c⟩
  dsimp only
  rcases job ctx with e | e | ⟨function, ctx⟩
  · exact ⟨_, rfl, fun _ => .inl⟩
  · exact ⟨_, rfl, fun _ => .inl⟩
  · refine ⟨_, rfl, fun ctx' hctx' => ?_⟩
    rcases List.mem_cons.1 hctx' with rfl | hctx'
    · exact .inr ⟨function, rfl⟩
    · exact .inl hctx'

/-- `job` reads nothing of the compiler but its target. -/
theorem withFunctionCompiler_unobserved (hg : g.Restores) (hc : ∀ ctx ∈ c.contexts, ctx.Clean)
    {job : CraneliftCompiler g A → CompilationContext g A →
      Fallible Error (CompiledFunction × CompilationContext g A)}
    (htarget : job c.emptied = job c) (hjob : Unobserving (job c)) :
    PoolUnobserved c fun c => c.withFunctionCompiler (job c) := by
  obtain ⟨s, hstack, hcontrol, h⟩ := functionCompiler_clean hg hc
  obtain ⟨contexts, hsnd, hcontexts⟩ := withFunctionCompiler_snd (c := c) (job c)
  rw [h] at hsnd hcontexts
  refine ⟨?_, ?_, ?_⟩
  · rw [withFunctionCompiler_fst, withFunctionCompiler_fst, htarget, h]
    exact hjob.outcome_eq hstack hcontrol
  · rw [hsnd]
    intro ctx hctx
    rcases hcontexts ctx hctx with hctx | ⟨function, hctx⟩
    · exact hc ctx (List.mem_of_mem_tail hctx)
    · exact hjob.clean hstack hcontrol hctx
  · rw [hsnd]
    rfl

theorem withLookup_unobserved {α : Type} {x : CraneliftCompiler g A → Except Fault α}
    {compile : α → CraneliftCompiler g A → Outcome × CraneliftCompiler g A}
    (hc : ∀ ctx ∈ c.contexts, ctx.Clean) (htarget : x c.emptied = x c)
    (hcompile : ∀ a, PoolUnobserved c (compile a)) :
    PoolUnobserved c fun c => c.withLookup (x c) fun a => compile a c := by
  unfold CraneliftCompiler.withLookup
  cases hx : x c with
  | error e => exact ⟨by rw [htarget, hx], by rwa [hx], by rw [hx]⟩
  | ok a =>
    obtain ⟨h1, h2, h3⟩ := hcompile a
    exact ⟨by rwa [htarget, hx], by rwa [hx], by rwa [hx]⟩

/-! ## Jobs -/

/-- The validator of a function starts with the one frame of the function. -/
def CompileJob.Starts (height : V → ℕ) : CompileJob P V A → Prop
  | .function job => ∀ a, height (job.intoValidator a) = 1
  | _ => True

theorem compileFunction_unobserved (hg : g.Restores) (hv : validator.Lawful height)
    (hc : ∀ ctx ∈ c.contexts, ctx.Clean) {job : FunctionJob P V A}
    (hjob : ∀ a, height (job.intoValidator a) = 1) :
    PoolUnobserved c fun c => c.compileFunction validator job := by
  refine withFunctionCompiler_unobserved hg hc rfl ⟨?_, ?_⟩
  · intro s hstack hcontrol
    unfold CompilationContext.new CompilationContext.withState FuncTranslator.new
    dsimp only
    rcases unwrap "called `Option::unwrap()` on a `None` value" job.funcTy >>=
      wasmCallSignature c.pointerType with e | signature
    · rfl
    rw [fallible_lift_ok_bind, fallible_lift_ok_bind, translateBody_eq_new hstack hcontrol]
    rcases job.env.translateBody validator .new _ signature.params _ job.body with e | e | ⟨s', b⟩
    · rfl
    · rfl
    exact finalizeAndFinish_outcome rfl _ _ _ _ _
  · intro s function ctx hstack hcontrol h
    obtain ⟨signature, -, h⟩ := fallible_bind_eq_ok.1 h
    obtain ⟨⟨s', b⟩, h1, h⟩ := fallible_bind_eq_ok.1 h
    obtain ⟨hstack', hcontrol'⟩ := translateBody_stacks hv h1 hcontrol (hjob _)
    exact finalizeAndFinish_clean hg h hstack' hcontrol' rfl

/-- A trampoline leaves the state as it is; `close` ends the code that it emits. -/
theorem trampoline_unobserving (hg : g.Restores) {α : Type} (func : g.Function) (sig : IrSignature)
    (emit : FunctionBuilder (P × List Entity) → ℕ → Except Fault α)
    (close : α → FunctionBuilder (P × List Entity)) :
    Unobserving fun ctx : CompilationContext g A =>
      (liftM (emit (CraneliftCompiler.builder ctx func sig).1
          (CraneliftCompiler.builder ctx func sig).2) : Fallible Error α) >>= fun a =>
        c.finalizeAndFinish ctx func (close a) ctx.funcTranslator.state none := by
  refine ⟨?_, ?_⟩
  · intro s _ _
    have hbuilder : CraneliftCompiler.builder (.withState s : CompilationContext g A) func sig
      = CraneliftCompiler.builder (.new : CompilationContext g A) func sig := rfl
    rw [hbuilder]
    rcases emit (CraneliftCompiler.builder (.new : CompilationContext g A) func sig).1
      (CraneliftCompiler.builder (.new : CompilationContext g A) func sig).2 with e | a
    · rfl
    · exact finalizeAndFinish_outcome rfl _ _ _ _ _
  · intro s function ctx hstack hcontrol h
    obtain ⟨a, -, h⟩ := fallible_bind_eq_ok.1 h
    exact finalizeAndFinish_clean hg h hstack hcontrol rfl

theorem compileArrayToWasmTrampoline_unobserved (hg : g.Restores) (hc : ∀ ctx ∈ c.contexts, ctx.Clean)
    (funcTy : Option WasmFuncType)
    (emit : IrSignature → FunctionBuilder (P × List Entity) → ℕ →
      Except Fault (FunctionBuilder (P × List Entity))) :
    PoolUnobserved c fun c => c.compileArrayToWasmTrampoline funcTy emit := by
  refine withLookup_unobserved hc rfl fun wasmCallSig => ?_
  refine withFunctionCompiler_unobserved hg hc rfl ?_
  exact trampoline_unobserving hg _ _ (emit wasmCallSig) fun b => b.terminate (.return_ [])

/-- The trampoline is not finished, and never leaves its context. -/
theorem compileWasmToArrayTrampoline_unobserved (hg : g.Restores) (hc : ∀ ctx ∈ c.contexts, ctx.Clean)
    (funcTy : WasmFuncType)
    (emit : FunctionBuilder (P × List Entity) → ℕ → Except Fault (FunctionBuilder (P × List Entity))) :
    PoolUnobserved c fun c => c.compileWasmToArrayTrampoline funcTy emit := by
  refine withLookup_unobserved hc rfl fun sig => ?_
  refine withFunctionCompiler_unobserved hg hc rfl ⟨fun _ _ => rfl, ?_⟩
  intro s function ctx _ _ h
  obtain ⟨_, -, h⟩ := fallible_bind_eq_ok.1 h
  cases h

theorem compileWasmToBuiltin_unobserved (hg : g.Restores) (hc : ∀ ctx ∈ c.contexts, ctx.Clean)
    (sig : IrSignature)
    (emit : FunctionBuilder (P × List Entity) → ℕ →
      Except Fault (List ℕ × FunctionBuilder (P × List Entity))) :
    PoolUnobserved c fun c => c.compileWasmToBuiltin sig emit := by
  refine withFunctionCompiler_unobserved hg hc rfl ?_
  exact trampoline_unobserving hg _ _ emit fun r => r.2.terminate (.return_ r.1)

theorem compile_unobserved (hg : g.Restores) (hv : validator.Lawful height)
    (hc : ∀ ctx ∈ c.contexts, ctx.Clean) {job : CompileJob P V A} (hjob : job.Starts height) :
    PoolUnobserved c fun c => c.compile validator job := by
  cases job with
  | function job => exact compileFunction_unobserved hg hv hc hjob
  | arrayToWasmTrampoline funcTy emit => exact compileArrayToWasmTrampoline_unobserved hg hc funcTy emit
  | wasmToArrayTrampoline funcTy emit => exact compileWasmToArrayTrampoline_unobserved hg hc funcTy emit
  | wasmToBuiltin sig emit => exact compileWasmToBuiltin_unobserved hg hc sig emit

theorem run_unobserved (hg : g.Restores) (hv : validator.Lawful height) :
    ∀ {jobs : List (CompileJob P V A)} {c : CraneliftCompiler g A}, (∀ ctx ∈ c.contexts, ctx.Clean) →
      (∀ job ∈ jobs, job.Starts height) →
      (c.run validator jobs).1 = jobs.map (fun job => (c.emptied.compile validator job).1)
        ∧ ∀ ctx ∈ (c.run validator jobs).2.contexts, ctx.Clean
  | [], _, hc, _ => ⟨rfl, hc⟩
  | job :: jobs, c, hc, hjobs => by
    have hjob := compile_unobserved hg hv hc (hjobs job List.mem_cons_self)
    obtain ⟨hrest, hclean⟩ := run_unobserved hg hv hjob.clean fun j hj =>
      hjobs j (List.mem_cons_of_mem _ hj)
    refine ⟨?_, hclean⟩
    unfold CraneliftCompiler.run
    dsimp only
    rw [hrest, hjob.emptied, hjob.outcome_eq, List.map_cons]

/-- The outcome of a job in a run is what it is on a compiler with an empty pool, and a context in the
pool has empty stacks and no entity that a later job can observe. -/
theorem run_eq_map_compile (hg : g.Restores) (hv : validator.Lawful height) (pointerType : Ty)
    (pointerBytes functionAlignment : ℕ) (jobs : List (CompileJob P V A))
    (hjobs : ∀ job ∈ jobs, job.Starts height) :
    let c : CraneliftCompiler g A := .new pointerType pointerBytes functionAlignment
    (c.run validator jobs).1 = jobs.map (fun job => (c.compile validator job).1)
      ∧ ∀ ctx ∈ (c.run validator jobs).2.contexts, ctx.Clean :=
  run_unobserved hg hv (fun _ h => absurd h List.not_mem_nil) hjobs

end Contexts

/-! ### Functions that read a global -/

/-- A code generator for functions that only return. -/
def returnCodegen (Q : Type) : Codegen Q where
  Context := Option (FunctionBuilder Q)
  Function := Option (FunctionBuilder Q)
  FunctionBuilderContext := Unit
  newContext := none
  clear _ := none
  func ctx := ctx
  setFunc _ func := func
  compile ctx := pure (⟨[0x67, 0x80, 0, 0], [], [], [], 1, 2 ^ 32 - 1⟩, ctx)
  withSignature _ := none
  setSignature func _ := func
  setName func _ := func
  setStackLimit func _ := func
  collectDebugInfo func := func
  newBuilderContext := ()
  builder _ _ := ⟨0, fun _ => ⟨[], [], none, false⟩, 0, fun _ => .I64, [], [], 0, 0⟩
  finalize _ b := pure (some b, ())

theorem returnCodegen_restores (Q : Type) : (returnCodegen Q).Restores :=
  ⟨fun _ => rfl, fun _ => rfl⟩

def noTypes : WasmModuleResources := ⟨[], fun a b => a = b⟩

/-- The one plain operator reads the first global, a word in the vmctx. -/
def globalEnvironment : FunctionEnvironment Unit where
  translation := ⟨true, noTypes, ⟨[], [], []⟩, .I64, fun _ _ => pure ⟨0, [.I64], true⟩,
    fun _ => panicking "index out of bounds", fun _ => panicking "index out of bounds",
    fun _ => panicking "index out of bounds"⟩
  entities _ := [.global 0]
  makeIndirectSig _ _ := panicking "index out of bounds"
  makeDirectFunc _ _ := panicking "index out of bounds"
  makeTable _ _ := panicking "index out of bounds"
  makeMemory _ _ := panicking "index out of bounds"
  makeGlobal _ _ := pure (.memory 0 56 .I64)

/-- A function of type `[] → []` with the given operators. -/
def globalJob (ops : List (Validate (Operator Unit))) : CompileJob Unit FuncValidator Unit :=
  .function ⟨0, some ⟨[], []⟩, globalEnvironment, fun _ => .new ⟨[], []⟩ [], ⟨[], ops, 32, 4⟩⟩

/-- A function that reads a global, one whose body is cut off, one that reads it again. -/
theorem run_eq_map_compile_globals :
    let c : CraneliftCompiler (returnCodegen (Unit × List Entity)) Unit := .new .I64 8 4
    let jobs := [globalJob [.ok (.plain ()), .ok .drop, .ok .end_],
      globalJob [.ok (.plain ()), .error {}], globalJob [.ok (.plain ()), .ok .drop, .ok .end_]]
    let validator := FuncValidator.bodyValidator noTypes fun _ => some ⟨[], [.i64]⟩
    (c.run validator jobs).1 = jobs.map (fun job => (c.compile validator job).1)
      ∧ ∀ ctx ∈ (c.run validator jobs).2.contexts, ctx.Clean :=
  run_eq_map_compile (returnCodegen_restores _) FuncValidator.bodyValidator_lawful .I64 8 4 _ (by
    intro job hjob
    simp only [List.mem_cons, List.not_mem_nil, or_false] at hjob
    rcases hjob with rfl | rfl | rfl <;> exact fun _ => rfl)

end K23VM.Cranelift
