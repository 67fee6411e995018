import K23VM.Compile.CompiledFunction
import K23VM.Cranelift.FuncTranslator
import K23VM.Runtime.VMOffsets

/-!
# The compiler and its contexts

A compile job takes a context from the pool of the compiler, or makes one, and puts it back once it
has finished.  A job that fails with an error or panics on the way drops its context.

The code generator is a parameter.  What a trampoline consists of is given with its job, as code that is
emitted with the builder.
-/

namespace K23VM.Cranelift

open Wasmparser Compile

def arrayCallSignature (pointerType : Ty) : IrSignature :=
  ⟨[pointerType, pointerType, pointerType, pointerType], []⟩

/-! ## Contexts -/

/-- What the compiler uses of the code generator; `Q` names the operators in the code. -/
structure Codegen (Q : Type) where
  Context : Type
  Function : Type
  FunctionBuilderContext : Type
  /-- `Context::new`. -/
  newContext : Context
  clear : Context → Context
  func : Context → Function
  setFunc : Context → Function → Context
  /-- The machine code of the function of a context. -/
  compile : Context → Fallible Error (CompiledFunction × Context)
  /-- A function without a name. -/
  withSignature : IrSignature → Function
  setSignature : Function → IrSignature → Function
  setName : Function → UserExternalName → Function
  /-- Load the stack limit from the vmctx at the given offset. -/
  setStackLimit : Function → ℕ → Function
  collectDebugInfo : Function → Function
  /-- `FunctionBuilderContext::new`. -/
  newBuilderContext : FunctionBuilderContext
  builder : Function → FunctionBuilderContext → FunctionBuilder Q
  finalize : Function → FunctionBuilder Q → Except Fault (Function × FunctionBuilderContext)

/-- What is restored where a context is cleared and where a builder is finalized. -/
structure Codegen.Restores {Q : Type} (g : Codegen Q) : Prop where
  clear : ∀ c, g.clear c = g.newContext
  finalize : ∀ {f b f' ctx}, g.finalize f b = .ok (f', ctx) → ctx = g.newBuilderContext

section

variable {P V A : Type} [Inhabited A] {g : Codegen (P × List Entity)}

structure FuncTranslator (g : Codegen (P × List Entity)) where
  funcCtx : g.FunctionBuilderContext
  state : FuncTranslatorState

def FuncTranslator.new : FuncTranslator g := ⟨g.newBuilderContext, .new⟩

/-- What a job works with; `A` are the allocations of the validator of function bodies. -/
structure CompilationContext (g : Codegen (P × List Entity)) (A : Type) where
  funcTranslator : FuncTranslator g
  codegenContext : g.Context
  validatorAllocations : A

def CompilationContext.new : CompilationContext g A := ⟨.new, g.newContext, default⟩

/-- The target, and the contexts that jobs have left, the last one first. -/
structure CraneliftCompiler (g : Codegen (P × List Entity)) (A : Type) where
  pointerType : Ty
  /-- The preferred one. -/
  functionAlignment : ℕ
  offsets : StaticVMOffsets
  contexts : List (CompilationContext g A)

/-- What comes of a job. -/
abbrev Outcome := Except Fault (Except Error CompiledFunction)

namespace CraneliftCompiler

/-- A compiler for a target, without contexts. -/
def new (pointerType : Ty) (pointerBytes functionAlignment : ℕ) : CraneliftCompiler g A :=
  ⟨pointerType, functionAlignment, ⟨pointerBytes⟩, []⟩

variable (c : CraneliftCompiler g A)

def functionCompiler : CompilationContext g A × CraneliftCompiler g A :=
  match c.contexts with
  | [] => (.new, c)
  | ctx :: contexts =>
    ({ ctx with codegenContext := g.clear ctx.codegenContext }, { c with contexts })

/-- Do a job with a context, which is back in the pool if the job finishes. -/
def withFunctionCompiler
    (job : CompilationContext g A → Fallible Error (CompiledFunction × CompilationContext g A)) :
    Outcome × CraneliftCompiler g A :=
  let (ctx, c) := c.functionCompiler
  match job ctx with
  | .ok (.ok (function, ctx)) => (.ok (.ok function), { c with contexts := ctx :: c.contexts })
  | .ok (.error e) => (.ok (.error e), c)
  | .error e => (.error e, c)

/-- Look something up before there is a context: a panic leaves the pool as it is. -/
def withLookup {α : Type} (x : Except Fault α) (job : α → Outcome × CraneliftCompiler g A) :
    Outcome × CraneliftCompiler g A :=
  match x with
  | .ok a => job a
  | .error e => (.error e, c)

/-- A builder for a function, with its first block. -/
def builder (ctx : CompilationContext g A) (func : g.Function) (sig : IrSignature) :
    FunctionBuilder (P × List Entity) × ℕ :=
  let b := g.builder func ctx.funcTranslator.funcCtx
  let (block0, b) := b.createBlock
  let b := (b.appendBlockParams block0 sig.params).switchToBlock block0
  (b.sealBlock block0, block0)

/-- Compile what is in the context and clear it. -/
def finish (ctx : CompilationContext g A) (body : Option (FunctionBody P)) :
    Fallible Error (CompiledFunction × CompilationContext g A) := do
  let (compiled, context) ← g.compile ctx.codegenContext
  let function := { compiled with
    alignment := max compiled.alignment c.functionAlignment
    startSrcloc := 2 ^ 32 - 1 }
  let function ← match body with
    | some body => do
      let start ← toU32 body.originalPosition
      let _ ← toU32 (body.originalPosition + body.bytesRemaining)
      pure { function with startSrcloc := start }
    | none => pure function
  pure (function, { ctx with codegenContext := g.clear context })

/-- Finalize the function of a builder and compile it. -/
def finalizeAndFinish (ctx : CompilationContext g A) (func : g.Function)
    (b : FunctionBuilder (P × List Entity)) (state : FuncTranslatorState)
    (body : Option (FunctionBody P)) :
    Fallible Error (CompiledFunction × CompilationContext g A) := do
  let (func, funcCtx) ← g.finalize func b
  c.finish { ctx with
    funcTranslator := ⟨funcCtx, state⟩
    codegenContext := g.setFunc ctx.codegenContext func } body

end CraneliftCompiler

/-! ## Jobs -/

/-- A function of the module, with the type that its index leads to and its body. -/
structure FunctionJob (P V A : Type) where
  index : ℕ
  funcTy : Option WasmFuncType
  env : FunctionEnvironment P
  intoValidator : A → V
  body : FunctionBody P

/-- A job, with what it emits. -/
inductive CompileJob (P V A : Type) where
  | function (job : FunctionJob P V A)
  | arrayToWasmTrampoline (funcTy : Option WasmFuncType)
    (emit : IrSignature → FunctionBuilder (P × List Entity) → ℕ →
      Except Fault (FunctionBuilder (P × List Entity)))
  | wasmToArrayTrampoline (funcTy : WasmFuncType)
    (emit : FunctionBuilder (P × List Entity) → ℕ → Except Fault (FunctionBuilder (P × List Entity)))
  | wasmToBuiltin (sig : IrSignature)
    (emit : FunctionBuilder (P × List Entity) → ℕ →
      Except Fault (List ℕ × FunctionBuilder (P × List Entity)))

namespace CraneliftCompiler

variable (validator : BodyValidator P V) (c : CraneliftCompiler g A)

def compileFunction (job : FunctionJob P V A) : Outcome × CraneliftCompiler g A :=
  c.withFunctionCompiler fun ctx => do
    let signature ← (unwrap "called `Option::unwrap()` on a `None` value" job.funcTy >>=
      wasmCallSignature c.pointerType : Except Fault _)
    let func := g.setSignature (g.func ctx.codegenContext) signature
    let func := g.setName func ⟨NS_WASM_FUNC, job.index⟩
    let func := g.collectDebugInfo (g.setStackLimit func c.offsets.vmctxStackLimit)
    let v := job.intoValidator ctx.validatorAllocations
    let ctx := { ctx with validatorAllocations := default }
    let (state, b) ← job.env.translateBody validator ctx.funcTranslator.state
      (g.builder func ctx.funcTranslator.funcCtx) signature.params v job.body
    c.finalizeAndFinish ctx func b state (some job.body)

def compileArrayToWasmTrampoline (funcTy : Option WasmFuncType)
    (emit : IrSignature → FunctionBuilder (P × List Entity) → ℕ →
      Except Fault (FunctionBuilder (P × List Entity))) : Outcome × CraneliftCompiler g A :=
  c.withLookup (unwrap "called `Option::unwrap()` on a `None` value" funcTy >>=
    wasmCallSignature c.pointerType) fun wasmCallSig =>
  c.withFunctionCompiler fun ctx => do
    let sig := arrayCallSignature c.pointerType
    let (b, block0) := builder ctx (g.withSignature sig) sig
    let b ← emit wasmCallSig b block0
    let b := b.terminate (.return_ [])
    c.finalizeAndFinish ctx (g.withSignature sig) b ctx.funcTranslator.state none

def compileWasmToArrayTrampoline (wasmFuncTy : WasmFuncType)
    (emit : FunctionBuilder (P × List Entity) → ℕ →
      Except Fault (FunctionBuilder (P × List Entity))) : Outcome × CraneliftCompiler g A :=
  c.withLookup (wasmCallSignature c.pointerType wasmFuncTy) fun sig =>
  c.withFunctionCompiler fun ctx => do
    let (b, block0) := builder ctx (g.withSignature sig) sig
    let _ ← emit b block0
    (panicking "not yet implemented" : Except Fault _)

def compileWasmToBuiltin (sig : IrSignature)
    (emit : FunctionBuilder (P × List Entity) → ℕ →
      Except Fault (List ℕ × FunctionBuilder (P × List Entity))) : Outcome × CraneliftCompiler g A :=
  c.withFunctionCompiler fun ctx => do
    let (b, block0) := builder ctx (g.withSignature sig) sig
    let (results, b) ← emit b block0
    let b := b.terminate (.return_ results)
    c.finalizeAndFinish ctx (g.withSignature sig) b ctx.funcTranslator.state none

def compile : CompileJob P V A → Outcome × CraneliftCompiler g A
  | .function job => c.compileFunction validator job
  | .arrayToWasmTrampoline funcTy emit => c.compileArrayToWasmTrampoline funcTy emit
  | .wasmToArrayTrampoline funcTy emit => c.compileWasmToArrayTrampoline funcTy emit
  | .wasmToBuiltin sig emit => c.compileWasmToBuiltin sig emit

/-- Do the jobs in order: what comes of each, and the compiler after them. -/
def run (c : CraneliftCompiler g A) : List (CompileJob P V A) → List Outcome × CraneliftCompiler g A
  | [] => ([], c)
  | job :: jobs =>
    let (outcome, c) := c.compile validator job
    let (outcomes, c) := run c jobs
    (outcome :: outcomes, c)

end CraneliftCompiler

end

end K23VM.Cranelift
