import K23VM.Compile.CompiledFunction
import K23VM.Lib.SortedMap
import K23VM.Lib.Word

/-!
# Compiling and linking a module

The functions of a module are compiled one by one, each with a trampoline for host callers if it
escapes, and then a trampoline for every builtin that the compiled code refers to.  The outputs are
filed by key and linked: each is appended to the text section and its relocations are resolved to the
outputs they name.

The compiler and the builder of the text section are parameters.  The calls to `resolve_reloc` are
recorded, in order.
-/

namespace K23VM.Compile

/-! ## Compiling -/

/-- The compiler, with errors of type `ε`. -/
structure Compiler (ε : Type) where
  compileFunction : ℕ → Except ε CompiledFunction
  compileArrayToWasmTrampoline : ℕ → Except ε CompiledFunction
  compileWasmToBuiltin : ℕ → Except ε CompiledFunction

structure CompileOutput where
  key : CompileKey
  function : CompiledFunction
  symbol : String
  deriving DecidableEq, Repr

/-- What the compilation reads of a module: how many functions are imported, and for each function
whether it escapes. -/
structure ModuleFunctions where
  numImportedFunctions : ℕ
  escaping : List Bool
  deriving DecidableEq, Repr

namespace ModuleFunctions

def funcIndex (m : ModuleFunctions) (index : ℕ) : ℕ := m.numImportedFunctions + index

def definedFuncIndex (m : ModuleFunctions) (index : ℕ) : Option ℕ :=
  if index < m.numImportedFunctions then none else some (index - m.numImportedFunctions)

end ModuleFunctions

/-- The jobs of a compilation. -/
inductive CompileInput where
  | function (index : ℕ)
  | arrayToWasmTrampoline (index : ℕ)
  | builtin (index : ℕ)
  deriving DecidableEq, Repr

/-- The jobs for the functions `i`, `i + 1`, …, of which there are `n`. -/
def fromModule (m : ModuleFunctions) : ℕ → ℕ → Except Fault (List CompileInput)
  | _, 0 => pure []
  | i, n + 1 => do
    let escaping ← unwrap "index out of bounds" m.escaping[m.funcIndex i]?
    let inputs ← fromModule m (i + 1) n
    pure (.function i :: if escaping then .arrayToWasmTrampoline i :: inputs else inputs)

section Compile

variable {ε : Type}

/-- The name of a builtin, from the table of all builtins. -/
def builtinName (builtins : List String) (index : ℕ) : Except Fault String :=
  unwrap "internal error: entered unreachable code" builtins[index]?

def runInput (compiler : Compiler ε) (m : ModuleFunctions) (builtins : List String) :
    CompileInput → Fallible ε CompileOutput
  | .function index => do
    let function ← compiler.compileFunction index
    pure ⟨.wasmFunction index, function, "wasm[0]::function[" ++ toString index ++ "]"⟩
  | .arrayToWasmTrampoline index => do
    let function ← compiler.compileArrayToWasmTrampoline index
    pure ⟨.arrayToWasmTrampoline index, function,
      "wasm[0]::array_to_wasm_trampoline[" ++ toString (m.funcIndex index) ++ "]"⟩
  | .builtin index => do
    let name ← builtinName builtins index
    let function ← compiler.compileWasmToBuiltin index
    pure ⟨.wasmToBuiltinTrampoline index, function, "wasm_builtin_" ++ name⟩

/-- The builtins that relocations refer to, each once. -/
def requiredBuiltins : List ℕ → List Relocation → List ℕ
  | seen, [] => seen
  | seen, r :: relocs =>
    match r.target with
    | .wasm _ => requiredBuiltins seen relocs
    | .builtin index =>
      requiredBuiltins (if index ∈ seen then seen else seen ++ [index]) relocs

def compileRequiredBuiltinTrampolines (compiler : Compiler ε) (m : ModuleFunctions)
    (builtins : List String) (outputs : List CompileOutput) : Fallible ε (List CompileOutput) := do
  let relocs ← (outputs.mapM fun o => o.function.relocations : Except Fault _)
  let new ← (requiredBuiltins [] relocs.flatten).mapM fun i =>
    runInput compiler m builtins (.builtin i)
  pure (outputs ++ new)

/-- Outputs by the kind of their key and their key. -/
abbrev Indices := SortedMap ℕ (SortedMap CompileKey ℕ)

def Indices.insertKey (indices : Indices) (key : CompileKey) (index : ℕ) : Indices :=
  indices.insert key.kind (((indices.get key.kind).getD .empty).insert key index)

/-- File the outputs from the position `n` on. -/
def fileOutputs : ℕ → Indices → List CompileOutput → Indices
  | _, indices, [] => indices
  | n, indices, output :: outputs => fileOutputs (n + 1) (indices.insertKey output.key n) outputs

structure UnlinkedCompileOutputs where
  indices : Indices
  outputs : List CompileOutput

def compile (compiler : Compiler ε) (m : ModuleFunctions) (builtins : List String)
    (inputs : List CompileInput) : Fallible ε UnlinkedCompileOutputs := do
  let outputs ← inputs.mapM (runInput compiler m builtins)
  let outputs ← compileRequiredBuiltinTrampolines compiler m builtins outputs
  pure ⟨fileOutputs 0 .empty outputs, outputs⟩

end Compile

/-! ## Linking -/

/-- A builder of a text section with states of type `σ`: appending a function gives its offset, and
resolving a relocation says whether it could be. -/
structure TextSectionBuilder (σ : Type) where
  init : σ
  append : σ → List UInt8 → ℕ → ℕ × σ
  resolveReloc : σ → ℕ → ℕ → ℤ → ℕ → Bool × σ
  finish : σ → List UInt8

/-- One call of `resolve_reloc`. -/
structure ResolveCall where
  offset : ℕ
  kind : ℕ
  addend : ℤ
  target : ℕ
  deriving DecidableEq, Repr

structure FunctionLoc where
  start : ℕ
  length : ℕ
  deriving DecidableEq, Repr

structure CompiledFunctionInfo where
  wasmFuncLoc : FunctionLoc
  hostToWasmTrampoline : Option FunctionLoc
  startSrcloc : ℕ
  deriving DecidableEq, Repr

structure TrapsBuilder where
  offsets : List ℕ
  traps : List Trap
  lastOffset : ℕ
  deriving DecidableEq, Repr

def TrapsBuilder.pushTrap (debug : Bool) (func : FunctionLoc) (b : TrapsBuilder) (trap : TrapInfo) :
    Except Fault TrapsBuilder := do
  let pos ← addU32OrPanic func.start trap.offset
  debugAssert debug (b.lastOffset ≤ pos) "assertion failed: pos >= self.last_offset"
  pure ⟨b.offsets ++ [pos], b.traps ++ [trap.trap], pos⟩

def TrapsBuilder.pushTraps (debug : Bool) (b : TrapsBuilder) (func : FunctionLoc)
    (traps : List TrapInfo) : Except Fault TrapsBuilder := do
  let b ← traps.foldlM (pushTrap debug func) b
  pure { b with lastOffset := ← addU32OrPanic func.start func.length }

section Link

variable {σ : Type}

/-- The position of the output that a relocation refers to. -/
def relocTarget (indices : Indices) (m : ModuleFunctions) : RelocationTarget → Except Fault ℕ
  | .wasm calleeIndex => do
    let defFuncIndex ← unwrap "called `Option::unwrap()` on a `None` value"
      (m.definedFuncIndex calleeIndex)
    let outputs ← unwrap "no entry found for key" (indices.get CompileKey.WASM_FUNCTION_KIND)
    unwrap "no entry found for key" (outputs.get (.wasmFunction defFuncIndex))
  | .builtin index => do
    let outputs ← unwrap "no entry found for key"
      (indices.get CompileKey.WASM_TO_BUILTIN_TRAMPOLINE_KIND)
    unwrap "no entry found for key" (outputs.get (.wasmToBuiltinTrampoline index))

/-- Resolve the relocations of the output at `off`.  The call is the argument of a `debug_assert`,
so that it is made only where these are compiled. -/
def resolveRelocs (debug : Bool) (tb : TextSectionBuilder σ) (indices : Indices)
    (m : ModuleFunctions) (off : ℕ) : σ → List Relocation → Except Fault (σ × List ResolveCall)
  | s, [] => pure (s, [])
  | s, r :: relocs => do
    let target ← relocTarget indices m r.target
    if debug then do
      let pos ← addOrPanic off r.offset
      let (resolved, s) := tb.resolveReloc s pos r.kind r.addend target
      assertThat resolved "assertion failed: text_builder.resolve_reloc(..)"
      let (s, calls) ← resolveRelocs debug tb indices m off s relocs
      pure (s, ⟨pos, r.kind, r.addend, target⟩ :: calls)
    else
      resolveRelocs debug tb indices m off s relocs

/-- What linking has done so far: the text section, the traps, the location of each output, and the
calls to resolve relocations. -/
structure LinkState (σ : Type) where
  text : σ
  traps : TrapsBuilder
  locs : List FunctionLoc
  calls : List (List ResolveCall)

def linkOutput (debug : Bool) (tb : TextSectionBuilder σ) (indices : Indices) (m : ModuleFunctions)
    (s : LinkState σ) (output : CompileOutput) : Except Fault (LinkState σ) := do
  let body := output.function.buffer
  let (off, text) := tb.append s.text body output.function.alignment
  let relocs ← output.function.relocations
  let (text, calls) ← resolveRelocs debug tb indices m off text relocs
  let loc : FunctionLoc := ⟨← toU32 off, ← toU32 body.length⟩
  let traps ← s.traps.pushTraps debug loc (← output.function.traps)
  pure ⟨text, traps, s.locs ++ [loc], s.calls ++ [calls]⟩

/-- The entry of the function table for one wasm function. -/
def functionInfo (u : UnlinkedCompileOutputs) (locs : List FunctionLoc)
    (trampolines : SortedMap CompileKey ℕ) (entry : CompileKey × ℕ) :
    Except Fault CompiledFunctionInfo := do
  let trampoline ← (trampolines.get (.arrayToWasmTrampoline entry.1.index)).mapM fun index =>
    unwrap "index out of bounds" locs[index]?
  let output ← unwrap "index out of bounds" u.outputs[entry.2]?
  let loc ← unwrap "index out of bounds" locs[entry.2]?
  pure ⟨loc, trampoline, output.function.startSrcloc⟩

/-- The linked module. -/
structure Linked where
  text : List UInt8
  funcs : List CompiledFunctionInfo
  trapOffsets : List ℕ
  traps : List Trap
  locs : List FunctionLoc
  calls : List (List ResolveCall)

def linkAndFinish (debug : Bool) (tb : TextSectionBuilder σ) (m : ModuleFunctions)
    (u : UnlinkedCompileOutputs) : Except Fault Linked := do
  let s ← u.outputs.foldlM (linkOutput debug tb u.indices m) ⟨tb.init, ⟨[], [], 0⟩, [], []⟩
  let wasmFunctions := (u.indices.get CompileKey.WASM_FUNCTION_KIND).getD .empty
  let trampolines := (u.indices.get CompileKey.ARRAY_TO_WASM_TRAMPOLINE_KIND).getD .empty
  let funcs ← wasmFunctions.entries.mapM (functionInfo u s.locs trampolines)
  pure ⟨tb.finish s.text, funcs, s.traps.offsets, s.traps.traps, s.locs, s.calls⟩

end Link

end K23VM.Compile
