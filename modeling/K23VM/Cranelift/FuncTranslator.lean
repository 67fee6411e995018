import K23VM.Cranelift.CodeTranslator
import K23VM.Cranelift.Memory
import K23VM.Translate.FuncValidator

/-!
# Translating a function body

The state of the translator outlives the function it translates: its stacks, and the signatures,
functions, tables, memories and globals that the code of the function has asked for, are cleared before
the next one.

The validator of function bodies is a parameter.  It sees an operator after it has been translated.
-/

namespace K23VM.Cranelift

open Wasmparser

/-! ## Entities -/

/-- The value of a WebAssembly global variable. -/
inductive CraneliftGlobal where
  /-- A constant global with a value known at compile time. -/
  | const (val : ℕ)
  | memory (gv : ℕ) (offset : ℤ) (ty : Ty)
  /-- A global that needs to be handled by the environment. -/
  | custom
  deriving DecidableEq, Repr

structure CraneliftTable where
  baseGv : ℕ
  bound : ℕ
  elementSize : ℕ
  deriving DecidableEq, Repr

/-- What an operator asks for. -/
inductive EntityIndex where
  | signature (index : ℕ)
  | function (index : ℕ)
  | table (index : ℕ)
  | memory (index : ℕ)
  | global (index : ℕ)
  deriving DecidableEq, Repr

/-- What stands for it in the code of one function. -/
inductive Entity where
  | signature (sig numArgs : ℕ)
  | function (func numArgs : ℕ)
  | table (table : CraneliftTable)
  | memory (memory : CraneliftMemory)
  | global (global : CraneliftGlobal)
  deriving DecidableEq, Repr

/-- The entities that the code has asked for, by index. -/
structure Entities where
  /-- With the number of WebAssembly arguments, as for the functions. -/
  signatures : List (ℕ × (ℕ × ℕ))
  functions : List (ℕ × (ℕ × ℕ))
  tables : List (ℕ × CraneliftTable)
  memories : List (ℕ × CraneliftMemory)
  globals : List (ℕ × CraneliftGlobal)
  deriving DecidableEq, Repr

def Entities.empty : Entities := ⟨[], [], [], [], []⟩

/-- `map.entry(index).or_insert_with(make)`. -/
def orInsertWith {α : Type} (map : List (ℕ × α)) (index : ℕ) (make : Except Fault α) :
    Except Fault (α × List (ℕ × α)) :=
  match map.lookup index with
  | some a => pure (a, map)
  | none => do
    let a ← make
    pure (a, (index, a) :: map)

/-- What the translator is told of the function and the module.  The instruction for a plain operator or
a call names the entities that the operator asked for, and what the environment makes of an entity
depends on the code so far. -/
structure FunctionEnvironment (P : Type) where
  translation : TranslationEnvironment (P × List Entity)
  entities : P → List EntityIndex
  makeIndirectSig : FunctionBuilder (P × List Entity) → ℕ → Except Fault (ℕ × ℕ)
  makeDirectFunc : FunctionBuilder (P × List Entity) → ℕ → Except Fault (ℕ × ℕ)
  makeTable : FunctionBuilder (P × List Entity) → ℕ → Except Fault CraneliftTable
  makeMemory : FunctionBuilder (P × List Entity) → ℕ → Except Fault CraneliftMemory
  makeGlobal : FunctionBuilder (P × List Entity) → ℕ → Except Fault CraneliftGlobal

/-! ## The state -/

/-- `FuncTranslationState` with its entities and without the builder. -/
structure FuncTranslatorState where
  stack : List ℕ
  controlStack : List ControlStackFrame
  reachable : Bool
  entities : Entities
  deriving DecidableEq, Repr

namespace FuncTranslatorState

variable {P : Type} (s : FuncTranslatorState)

def new : FuncTranslatorState := ⟨[], [], true, .empty⟩

/-- The stacks are expected to be empty, and are not cleared. -/
def clear (debug : Bool) : Except Fault FuncTranslatorState := do
  debugAssert debug s.stack.isEmpty "assertion failed: self.stack.is_empty()"
  debugAssert debug s.controlStack.isEmpty "assertion failed: self.control_stack.is_empty()"
  pure { s with reachable := true, entities := .empty }

def withBuilder (b : FunctionBuilder P) : FuncTranslationState P :=
  ⟨s.stack, s.controlStack, s.reachable, b⟩

def update (t : FuncTranslationState P) : FuncTranslatorState :=
  { s with stack := t.stack, controlStack := t.controlStack, reachable := t.reachable }

/-- The state with a single block for the whole function. -/
def initializeState (debug : Bool) (b : FunctionBuilder P) (exitBlock : ℕ) :
    Except Fault FuncTranslatorState := do
  let s ← s.clear debug
  pure (s.update (← (s.withBuilder b).pushBlock debug exitBlock 0 b.returns.length))

section Entities

variable (env : FunctionEnvironment P) (b : FunctionBuilder (P × List Entity)) (index : ℕ)

def getIndirectSig : Except Fault (Entity × Entities) := do
  let ((sig, numArgs), signatures) ←
    orInsertWith s.entities.signatures index (env.makeIndirectSig b index)
  pure (.signature sig numArgs, { s.entities with signatures })

def getDirectFunc : Except Fault (Entity × Entities) := do
  let ((func, numArgs), functions) ←
    orInsertWith s.entities.functions index (env.makeDirectFunc b index)
  pure (.function func numArgs, { s.entities with functions })

def getTable : Except Fault (Entity × Entities) := do
  let (table, tables) ← orInsertWith s.entities.tables index (env.makeTable b index)
  pure (.table table, { s.entities with tables })

def getMemory : Except Fault (Entity × Entities) := do
  let (memory, memories) ← orInsertWith s.entities.memories index (env.makeMemory b index)
  pure (.memory memory, { s.entities with memories })

def getGlobal : Except Fault (Entity × Entities) := do
  let (global, globals) ← orInsertWith s.entities.globals index (env.makeGlobal b index)
  pure (.global global, { s.entities with globals })

end Entities

def getEntity (env : FunctionEnvironment P) (b : FunctionBuilder (P × List Entity)) :
    EntityIndex → Except Fault (Entity × Entities)
  | .signature index => s.getIndirectSig env b index
  | .function index => s.getDirectFunc env b index
  | .table index => s.getTable env b index
  | .memory index => s.getMemory env b index
  | .global index => s.getGlobal env b index

/-- The entities that a plain operator or a call asks for, in order. -/
def getEntities (env : FunctionEnvironment P) (b : FunctionBuilder (P × List Entity)) :
    FuncTranslatorState → List EntityIndex → Except Fault (List Entity × FuncTranslatorState)
  | s, [] => pure ([], s)
  | s, index :: indices => do
    let (entity, entities) ← s.getEntity env b index
    let (rest, s) ← getEntities env b { s with entities } indices
    pure (entity :: rest, s)

end FuncTranslatorState

/-! ## The body -/

/-- What the translation uses of the validator of a function body. -/
structure BodyValidator (P V : Type) where
  defineLocals : V → ℕ → ValType → Validate V
  op : V → Operator P → Validate V
  finish : V → Validate Unit

/-- There are `height` frames of the function and its blocks, loops and ifs open, and none where a body
is accepted.  At an `end` the validator may close a frame of another kind. -/
structure BodyValidator.Lawful {P V : Type} (validator : BodyValidator P V) (height : V → ℕ) : Prop where
  defineLocals : ∀ {v n ty v'}, validator.defineLocals v n ty = .ok v' → height v' = height v
  op : ∀ {v op v'}, validator.op v op = .ok v' → height v + op.opens ≤ height v' + op.closes
  finish : ∀ {v}, validator.finish v = .ok () → height v = 0

/-- The locals that a body declares and its operators, as they are read from it one by one, and where it
starts and how long it is. -/
structure FunctionBody (P : Type) where
  locals : List (Validate (ℕ × ValType))
  operators : List (Validate (Operator P))
  originalPosition : ℕ
  bytesRemaining : ℕ

/-- An error of the reader or the validator ends the translation. -/
def orInvalid {α : Type} : Validate α → Fallible Error α
  | .ok a => pure a
  | .error e => throw (.invalidWebAssembly e)

namespace FunctionEnvironment

variable {P V : Type} (env : FunctionEnvironment P) (validator : BodyValidator P V)

/-- An operator with the entities that it asks for; in code that is not reached it asks for none. -/
def withEntities (s : FuncTranslatorState) (b : FunctionBuilder (P × List Entity)) (op : Operator P) :
    Except Fault (Operator (P × List Entity) × FuncTranslatorState) :=
  match op with
  | .plain p | .call p | .callIndirect p | .returnCall p | .returnCallIndirect p =>
    if s.reachable then do
      debugAssert env.translation.debug (!b.isUnreachable) "assertion failed: !builder.is_unreachable()"
      let (entities, s) ← s.getEntities env b (env.entities p)
      pure (op.map fun p => (p, entities), s)
    else
      pure (op.map fun p => (p, []), s)
  | op => pure (op.map fun p => (p, []), s)

def translateOperator (s : FuncTranslatorState) (b : FunctionBuilder (P × List Entity))
    (op : Operator P) :
    Fallible Error (FuncTranslatorState × FunctionBuilder (P × List Entity)) := do
  let (op, s) ← (env.withEntities s b op : Except Fault _)
  let t ← env.translation.translateOperator (s.withBuilder b) op
  pure (s.update t, t.builder)

/-- Make variables of the parameters, but for the two that are contexts. -/
def declareWasmParameters (b : FunctionBuilder (P × List Entity)) (entryBlock : ℕ) :
    Except Fault (FunctionBuilder (P × List Entity)) :=
  ((b.blockParams entryBlock).drop 2).foldlM (fun b param =>
    { b with vars := b.vars ++ [b.valueType param] }.defVar b.vars.length param) b

/-- Declare `count` locals, all of which start as zero if the type has one. -/
def declareLocals (b : FunctionBuilder (P × List Entity)) (count : ℕ) (wasmType : ValType) :
    Except Fault (FunctionBuilder (P × List Entity)) := do
  let ty ← env.translation.valueType wasmType
  let (init, b) ←
    match wasmType with
    | .ref rt =>
      if rt.nullable then do
        let hty ← env.translation.types.convertHeapType rt.heapType
        assertThat (!hty.shared) "assertion failed: !hty.shared"
        let (init, b) := b.ins ty .zero
        pure (some init, b)
      else
        pure (none, b)
    | _ => do
      let (init, b) := b.ins ty .zero
      pure (some init, b)
  (List.range count).foldlM (fun b _ => do
    let local_ := b.vars.length
    let b := { b with vars := b.vars ++ [ty] }
    match init with
    | some init => b.defVar local_ init
    | none => pure b) b

def translateLocalDecls : V → FunctionBuilder (P × List Entity) → List (Validate (ℕ × ValType)) →
    Fallible Error (V × FunctionBuilder (P × List Entity))
  | v, b, [] => pure (v, b)
  | v, b, decl :: decls => do
    let (count, ty) ← orInvalid decl
    let v ← orInvalid (validator.defineLocals v count ty)
    let b ← (env.declareLocals b count ty : Except Fault _)
    translateLocalDecls v b decls

/-- Translate the operators of a body, and validate each after it. -/
def translateOperators : V → FuncTranslatorState → FunctionBuilder (P × List Entity) →
    List (Validate (Operator P)) →
    Fallible Error (V × FuncTranslatorState × FunctionBuilder (P × List Entity))
  | v, s, b, [] => pure (v, s, b)
  | v, s, b, op :: ops => do
    let op ← orInvalid op
    let (s, b) ← env.translateOperator s b op
    let v ← orInvalid (validator.op v op)
    translateOperators v s b ops

def translateFunctionBody (v : V) (s : FuncTranslatorState) (b : FunctionBuilder (P × List Entity))
    (ops : List (Validate (Operator P))) :
    Fallible Error (FuncTranslatorState × FunctionBuilder (P × List Entity)) := do
  debugAssert env.translation.debug (s.controlStack.length = 1) "State not initialized"
  let (v, s, b) ← env.translateOperators validator v s b ops
  orInvalid (validator.finish v)
  -- The final `end` left the builder in the exit block, without a return.
  let b ←
    if s.reachable && !b.isUnreachable then do
      let (args, b) ← b.bitcastWasmReturns s.stack
      pure (b.terminate (.return_ args))
    else pure b
  pure ({ s with stack := [] }, b)

/-- Translate a body into a function without blocks, whose parameters have the types `params`. -/
def translateBody (s : FuncTranslatorState) (b : FunctionBuilder (P × List Entity)) (params : List Ty)
    (v : V) (body : FunctionBody P) :
    Fallible Error (FuncTranslatorState × FunctionBuilder (P × List Entity)) := do
  debugAssert env.translation.debug (b.numBlocks = 0) "Function must be empty"
  let (entryBlock, b) := b.createBlock
  let b := (b.appendBlockParams entryBlock params).switchToBlock entryBlock
  let b := b.sealBlock entryBlock
  let b ← (declareWasmParameters b entryBlock : Except Fault _)
  let (exitBlock, b) := b.createBlock
  let b := b.appendBlockParams exitBlock b.returns
  let s ← s.initializeState env.translation.debug b exitBlock
  let (v, b) ← env.translateLocalDecls validator v b body.locals
  env.translateFunctionBody validator v s b body.operators

end FunctionEnvironment

end K23VM.Cranelift
