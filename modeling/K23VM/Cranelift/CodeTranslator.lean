import K23VM.Cranelift.FuncEnv
import K23VM.Cranelift.State

/-!
# Translating operators

The translation of one operator.  Code that is not reached is not translated, but the control frames
in it are pushed and popped, as placeholders.
-/

namespace K23VM.Cranelift

open Wasmparser

variable {P : Type}

/-! ## Vectors

Vectors are cast to one type where control flow joins and where they leave the function. -/

def Ty.isNonCanonicalV128 : Ty → Bool
  | .I64X2 | .I32X4 | .I16X8 | .F32X4 | .F64X2 => true
  | _ => false

/-- The parameters of a signature but for the two that are contexts. -/
def IrSignature.wasmParams (sig : IrSignature) : List Ty := sig.params.drop 2

namespace FunctionBuilder

def optionallyBitcastVector (b : FunctionBuilder P) (value : ℕ) (neededType : Ty) :
    ℕ × FunctionBuilder P :=
  if b.valueType value ≠ neededType then b.ins neededType (.bitcast neededType value) else (value, b)

def canonicaliseV128Values (b : FunctionBuilder P) : List ℕ → List ℕ × FunctionBuilder P
  | [] => ([], b)
  | v :: vs =>
    let (v, b) :=
      if (b.valueType v).isNonCanonicalV128 then b.ins .I8X16 (.bitcast .I8X16 v) else (v, b)
    let (vs, b) := b.canonicaliseV128Values vs
    (v :: vs, b)

def canonicaliseThenJump (b : FunctionBuilder P) (destination : ℕ) (params : List ℕ) :
    FunctionBuilder P :=
  let (args, b) := b.canonicaliseV128Values params
  b.terminate (.jump ⟨destination, args⟩)

def canonicaliseBrif (b : FunctionBuilder P) (cond blockThen : ℕ) (paramsThen : List ℕ)
    (blockElse : ℕ) (paramsElse : List ℕ) : FunctionBuilder P :=
  let (argsThen, b) := b.canonicaliseV128Values paramsThen
  let (argsElse, b) := b.canonicaliseV128Values paramsElse
  b.terminate (.brif cond ⟨blockThen, argsThen⟩ ⟨blockElse, argsElse⟩)

/-- The values and the types are as many, and where a type is a vector so is the value. -/
def checkArguments (b : FunctionBuilder P) : List ℕ → List Ty → Except Fault Unit
  | [], [] => pure ()
  | arg :: args, param :: params => do
    if param.isVector then assertThat (b.valueType arg).isVector "unexpected type mismatch"
    b.checkArguments args params
  | _, _ => panicking "iterators are different in length"

/-- Cast the vectors to the types that are needed. -/
def bitcastVectors (b : FunctionBuilder P) : List ℕ → List Ty → List ℕ × FunctionBuilder P
  | arg :: args, param :: params =>
    let (arg, b) := if param.isVector then b.optionallyBitcastVector arg param else (arg, b)
    let (args, b) := b.bitcastVectors args params
    (arg :: args, b)
  | args, _ => (args, b)

def bitcastWasmReturns (b : FunctionBuilder P) (arguments : List ℕ) :
    Except Fault (List ℕ × FunctionBuilder P) := do
  b.checkArguments arguments b.returns
  pure (b.bitcastVectors arguments b.returns)

def bitcastWasmParams (b : FunctionBuilder P) (sig : IrSignature) (arguments : List ℕ) :
    Except Fault (List ℕ × FunctionBuilder P) := do
  b.checkArguments arguments sig.wasmParams
  pure (b.bitcastVectors arguments sig.wasmParams)

/-- A value of the type of a local. -/
def castLocal (b : FunctionBuilder P) (val : ℕ) : ℕ × FunctionBuilder P :=
  if (b.valueType val).isVector then b.optionallyBitcastVector val .I8X16 else (val, b)

def translateRefIsNull (b : FunctionBuilder P) (value : ℕ) : ℕ × FunctionBuilder P :=
  b.ins .I32 (.isNull value)

end FunctionBuilder

/-! ## Branches -/

namespace FuncTranslationState

variable (debug : Bool) (s : FuncTranslationState P)

def translateBrIfArgs (relativeDepth : ℕ) :
    Except Fault ((ℕ × List ℕ) × FuncTranslationState P) := do
  let frame ← s.frameAt relativeDepth
  let s := s.setBranchedTo relativeDepth
  let inputs ← s.peekn debug frame.brArity
  pure ((frame.brDestination, inputs), s)

def translateBrIf (relativeDepth : ℕ) : Except Fault (FuncTranslationState P) := do
  let (val, s) ← s.pop1
  let ((brDestination, inputs), s) ← s.translateBrIfArgs debug relativeDepth
  let (nextBlock, b) := s.builder.createBlock
  let b := b.canonicaliseBrif val brDestination inputs nextBlock []
  let b := (b.sealBlock nextBlock).switchToBlock nextBlock
  pure { s with builder := b }

/-- The targets of a branch table without arguments. -/
def brTableTargets : FuncTranslationState P → List ℕ →
    Except Fault (List ℕ × FuncTranslationState P)
  | s, [] => pure ([], s)
  | s, depth :: depths => do
    let frame ← s.frameAt depth
    let s := s.setBranchedTo depth
    let (blocks, s) ← brTableTargets s depths
    pure (frame.brDestination :: blocks, s)

/-- One new block for each of the depths that has none yet: the block of each depth, and the depths with
a block. -/
def brTableBlocks (b : FunctionBuilder P) (seen : List (ℕ × ℕ)) :
    List ℕ → List ℕ × List (ℕ × ℕ) × FunctionBuilder P
  | [] => ([], seen, b)
  | depth :: depths =>
    match seen.lookup depth with
    | some block =>
      let (blocks, seen, b) := brTableBlocks b seen depths
      (block :: blocks, seen, b)
    | none =>
      let (block, b) := b.createBlock
      let (blocks, seen, b) := brTableBlocks b (seen ++ [(depth, block)]) depths
      (block :: blocks, seen, b)

/-- Fill the blocks on the edges of a branch table, which jump on with the arguments. -/
def brTableJumps (returnCount : ℕ) :
    FuncTranslationState P → List (ℕ × ℕ) → Except Fault (FuncTranslationState P)
  | s, [] => pure s
  | s, (depth, destBlock) :: rest => do
    let s := { s with builder := (s.builder.switchToBlock destBlock).sealBlock destBlock }
    let frame ← s.frameAt depth
    let s := s.setBranchedTo depth
    let destinationArgs ← s.peekn debug returnCount
    brTableJumps returnCount
      { s with builder := s.builder.canonicaliseThenJump frame.brDestination destinationArgs } rest

def translateBrTable (targets : List ℕ) (default : ℕ) : Except Fault (FuncTranslationState P) := do
  let minDepth := targets.foldl (fun minDepth depth => if depth < minDepth then depth else minDepth) default
  let jumpArgsCount := (← s.frameAt minDepth).brArity
  let (val, s) ← s.pop1
  if jumpArgsCount = 0 then
    let (data, s) ← s.brTableTargets targets
    let frame ← s.frameAt default
    let s := s.setBranchedTo default
    pure { s with
      builder := s.builder.terminate (.brTable val data frame.brDestination)
      reachable := false }
  else
    let (data, seen, b) := brTableBlocks s.builder [] targets
    let (defaultBlock, destBlockSequence, b) := brTableBlocks b seen [default]
    let b := b.terminate (.brTable val data (defaultBlock.headD RESERVED))
    let s ← brTableJumps debug jumpArgsCount { s with builder := b } destBlockSequence
    let s ← s.popn debug jumpArgsCount
    pure { s with reachable := false }

/-- Jump out of a block that is left with results. -/
def jumpWith (destination returnCount : ℕ) : Except Fault (FuncTranslationState P) := do
  let args ← s.peekn debug returnCount
  let s := { s with builder := s.builder.canonicaliseThenJump destination args }
  s.popn debug returnCount

end FuncTranslationState

/-! ## Operators -/

namespace TranslationEnvironment

variable (env : TranslationEnvironment P)

/-! ### Calls -/

/-- `special_param(ArgumentPurpose::VMContext)`. -/
def callerVmctx (b : FunctionBuilder P) : Except Fault ℕ :=
  unwrap "called `Option::unwrap()` on a `None` value" (b.blockParams b.entry).head?

/-- Call with the two contexts and the arguments. -/
def callInst (b : FunctionBuilder P) (p : P) (sig : IrSignature) (ownVmctx : Bool) (args : List ℕ) :
    Except Fault (List ℕ × FunctionBuilder P) := do
  let callerVmctx ← callerVmctx b
  let (calleeVmctx, b) :=
    if ownVmctx then (callerVmctx, b) else b.ins env.pointerType (.calleeVmctx p)
  let (results, b) := b.makeValues sig.returns
  pure (results, b.insert (.call p sig (calleeVmctx :: callerVmctx :: args) results))

def translateCall (s : FuncTranslationState P) (p : P) : Except Fault (FuncTranslationState P) := do
  let callee ← env.callee p
  let sig ← wasmCallSignature env.pointerType callee.ty
  let numArgs := sig.wasmParams.length
  let args ← s.peekn env.debug numArgs
  let (args, b) ← s.builder.bitcastWasmParams sig args
  let (results, b) ← env.callInst b p sig callee.ownVmctx args
  let s ← { s with builder := b }.popn env.debug numArgs
  pure (s.pushn results)

/-- A call of a function that is found in a table, which is part of the instruction.  Where the check of
its signature is known to end in a trap the arguments stay on the stack. -/
def translateCallIndirect (s : FuncTranslationState P) (p : P) :
    Except Fault (FuncTranslationState P) := do
  let sig ← wasmCallSignature env.pointerType (← env.indirectCallee p)
  let numArgs := sig.wasmParams.length
  let (_, s) ← s.pop1
  let args ← s.peekn env.debug numArgs
  let (args, b) ← s.builder.bitcastWasmParams sig args
  match ← env.checkIndirectCall p with
  | some code => pure { s with builder := b.terminate (.trap code), reachable := false }
  | none => do
    let (results, b) ← env.callInst b p sig false args
    let s ← { s with builder := b }.popn env.debug numArgs
    pure (s.pushn results)

/-- `translate_return_call`, `translate_return_call_indirect` and `translate_return_call_ref`. -/
def translateTailCall : Except Fault (FunctionBuilder P) := panicking "not yet implemented"

def translateReturnCall (s : FuncTranslationState P) (p : P) : Except Fault (FuncTranslationState P) := do
  let callee ← env.callee p
  let sig ← wasmCallSignature env.pointerType callee.ty
  let numArgs := sig.wasmParams.length
  let args ← s.peekn env.debug numArgs
  let _ ← s.builder.bitcastWasmParams sig args
  let b ← translateTailCall
  let s ← { s with builder := b }.popn env.debug numArgs
  pure { s with reachable := false }

/-- The index into the table, or the reference to the function, is the last operand. -/
def translateReturnCallIndirect (s : FuncTranslationState P) (p : P) :
    Except Fault (FuncTranslationState P) := do
  let sig ← wasmCallSignature env.pointerType (← env.indirectCallee p)
  let numArgs := sig.wasmParams.length
  let (_, s) ← s.pop1
  let args ← s.peekn env.debug numArgs
  let _ ← s.builder.bitcastWasmParams sig args
  let b ← translateTailCall
  let s ← { s with builder := b }.popn env.debug numArgs
  pure { s with reachable := false }

/-! ### In code that is reached -/

/-- The operators in code that is reached, but for the plain ones and those that are not supported. -/
def translateReachableOperator (s : FuncTranslationState P) :
    Operator P → Except Fault (FuncTranslationState P)
  | .unreachable =>
    pure { s with builder := s.builder.terminate (.trap .unreachable), reachable := false }
  | .nop => pure s
  | .drop => do
    let (_, s) ← s.pop1
    pure s
  | .select _ => do
    let ((arg1, arg2, cond), s) ← s.pop3
    let (arg1, b) := s.builder.castLocal arg1
    let (arg2, b) := b.castLocal arg2
    let (result, b) := b.ins (b.valueType arg1) (.select cond arg1 arg2)
    pure ({ s with builder := b }.push1 result)
  | .block blockty => do
    let ty ← env.blocktypeParamsResults blockty
    let (next, b) ← env.blockWithParams s.builder ty.results
    { s with builder := b }.pushBlock env.debug next ty.params.length ty.results.length
  | .loop blockty => do
    let ty ← env.blocktypeParamsResults blockty
    let (loopBody, b) ← env.blockWithParams s.builder ty.params
    let (next, b) ← env.blockWithParams b ty.results
    let args ← s.peekn env.debug ty.params.length
    let s := { s with builder := b.canonicaliseThenJump loopBody args }
    let s ← s.pushLoop env.debug loopBody next ty.params.length ty.results.length
    -- The parameters are those of the block, since control flow joins at the top of the loop.
    let s ← s.popn env.debug ty.params.length
    let s := s.pushn (s.builder.blockParams loopBody)
    pure { s with builder := s.builder.switchToBlock loopBody }
  | .if_ blockty => do
    let (val, s) ← s.pop1
    let (nextBlock, b) := s.builder.createBlock
    let ty ← env.blocktypeParamsResults blockty
    let (destination, b) ← env.blockWithParams b ty.results
    let (elseData, b) ←
      if ty.params = ty.results then do
        -- There may be no `else`: the branch goes to the end until there is.
        let args ← s.peekn env.debug ty.params.length
        let branchInst := b.position
        pure (ElseData.noElse branchInst destination,
          b.canonicaliseBrif val nextBlock [] destination args)
      else do
        let (elseBlock, b) ← env.blockWithParams b ty.params
        let args ← s.peekn env.debug ty.params.length
        pure (ElseData.withElse elseBlock,
          (b.canonicaliseBrif val nextBlock [] elseBlock args).sealBlock elseBlock)
    let b := (b.sealBlock nextBlock).switchToBlock nextBlock
    { s with builder := b }.pushIf env.debug destination elseData ty.params.length ty.results.length
      blockty
  | .else_ => do
    let frame ← s.frameAt 0
    match frame.data with
    | .if_ elseData blocktype headIsReachable consequentEndsReachable => do
      debugAssert env.debug consequentEndsReachable.isNone
        "assertion failed: consequent_ends_reachable.is_none()"
      let s := { s with controlStack := s.controlStack.modify 0 fun frame =>
        { frame with data := .if_ elseData blocktype headIsReachable (some s.reachable) } }
      if headIsReachable then
        let s := { s with reachable := true }
        let (elseBlock, s) ←
          match elseData with
          | .noElse branchInst placeholder => do
            let ty ← env.blocktypeParamsResults blocktype
            debugAssert env.debug (ty.params.length = frame.numReturnValues)
              "assertion `left == right` failed"
            let (elseBlock, b) ← env.blockWithParams s.builder ty.params
            let s ← { s with builder := b }.jumpWith env.debug frame.destination ty.params.length
            let b := s.builder.changeJumpDestination branchInst placeholder elseBlock
            pure (elseBlock, { s with builder := b.sealBlock elseBlock })
          | .withElse elseBlock => do
            let s ← s.jumpWith env.debug frame.destination frame.numReturnValues
            pure (elseBlock, s)
        pure { s with builder := s.builder.switchToBlock elseBlock }
      else
        pure s
    | _ => panicking "internal error: entered unreachable code"
  | .end_ => do
    let frame ← s.frameAt 0
    let s := { s with controlStack := s.controlStack.tail }
    let nextBlock := frame.followingCode
    let returnArgs ← s.peekn env.debug frame.numReturnValues
    let b := s.builder.canonicaliseThenJump nextBlock returnArgs
    let b := (b.switchToBlock nextBlock).sealBlock nextBlock
    let b := match frame.data with
      | .loop header => b.sealBlock header
      | _ => b
    let s := { s with builder := b }.truncateStack (← frame.sizeBefore env.debug)
    pure (s.pushn (s.builder.blockParams nextBlock))
  | .br relativeDepth => do
    let frame ← s.frameAt relativeDepth
    let s := s.setBranchedTo relativeDepth
    let s ← s.jumpWith env.debug frame.brDestination frame.brArity
    pure { s with reachable := false }
  | .brIf relativeDepth => s.translateBrIf env.debug relativeDepth
  | .brTable targets default => s.translateBrTable env.debug targets default
  | .return_ => do
    let frame ← unwrap "index out of bounds" s.controlStack.getLast?
    let returnArgs ← s.peekn env.debug frame.numReturnValues
    let (returnArgs, b) ← s.builder.bitcastWasmReturns returnArgs
    let s ← { s with builder := b.terminate (.return_ returnArgs) }.popn env.debug frame.numReturnValues
    pure { s with reachable := false }
  | .localGet localIndex => do
    let (val, b) ← s.builder.useVar localIndex
    pure ({ s with builder := b }.push1 val)
  | .localSet localIndex => do
    let (val, s) ← s.pop1
    let (val, b) := s.builder.castLocal val
    pure { s with builder := ← b.defVar localIndex val }
  | .localTee localIndex => do
    let val ← s.peek1
    let (val, b) := s.builder.castLocal val
    pure { s with builder := ← b.defVar localIndex val }
  | .refIsNull => do
    let (value, s) ← s.pop1
    let (isNull, b) := s.builder.translateRefIsNull value
    pure ({ s with builder := b }.push1 isNull)
  | .refAsNonNull => do
    let (r, s) ← s.pop1
    let (isNull, b) := s.builder.translateRefIsNull r
    pure ({ s with builder := b.insert (.trapnz isNull .nullReference) }.push1 r)
  | .brOnNull relativeDepth => do
    let (r, s) ← s.pop1
    let ((brDestination, inputs), s) ← s.translateBrIfArgs env.debug relativeDepth
    let (isNull, b) := s.builder.translateRefIsNull r
    let (elseBlock, b) := b.createBlock
    let b := b.canonicaliseBrif isNull brDestination inputs elseBlock []
    let b := (b.sealBlock elseBlock).switchToBlock elseBlock
    pure ({ s with builder := b }.push1 r)
  | .brOnNonNull relativeDepth => do
    -- The reference is the last of the arguments of the branch.
    let (isNull, b) := s.builder.translateRefIsNull (← s.peek1)
    let ((brDestination, inputs), s) ← { s with builder := b }.translateBrIfArgs env.debug relativeDepth
    let (elseBlock, b) := s.builder.createBlock
    let b := b.canonicaliseBrif isNull elseBlock [] brDestination inputs
    let (_, s) ← { s with builder := b }.pop1
    let b := (s.builder.sealBlock elseBlock).switchToBlock elseBlock
    pure { s with builder := b }
  | .call p => env.translateCall s p
  | .callIndirect p => env.translateCallIndirect s p
  | .returnCall p => env.translateReturnCall s p
  | .returnCallIndirect p => env.translateReturnCallIndirect s p
  | .brOnCast .. | .brOnCastFail .. | .tryTable _ | .throw _ | .throwRef | .plain _ => pure s

/-- A plain operator in code that is reached. -/
def translatePlainOperator (s : FuncTranslationState P) (p : P) :
    Fallible Error (FuncTranslationState P) := do
  let shape ← env.translatePlain p (s.stack.map s.builder.valueType)
  assertThat (shape.pops ≤ s.stack.length) "attempted to pop a value from an empty stack"
  let args := s.stack.drop (s.stack.length - shape.pops)
  let (results, b) := s.builder.makeValues shape.results
  pure { s with
    stack := s.stack.take (s.stack.length - shape.pops) ++ results
    builder := b.insert (.op p args results)
    reachable := shape.reachable }

/-! ### In code that is not reached -/

/-- The operators in code that is not reached. -/
def translateUnreachableOperator (s : FuncTranslationState P) :
    Operator P → Except Fault (FuncTranslationState P)
  | .if_ blockty => s.pushIf env.debug RESERVED (.noElse RESERVED RESERVED) 0 0 blockty
  | .loop _ | .block _ => s.pushBlock env.debug RESERVED 0 0
  | .else_ => do
    let frame ← s.frameAt 0
    match frame.data with
    | .if_ elseData blocktype headIsReachable consequentEndsReachable => do
      debugAssert env.debug consequentEndsReachable.isNone
        "assertion failed: consequent_ends_reachable.is_none()"
      let s := { s with controlStack := s.controlStack.modify 0 fun frame =>
        { frame with data := .if_ elseData blocktype headIsReachable (some s.reachable) } }
      if headIsReachable then
        let s := { s with reachable := true }
        let (elseBlock, s) ←
          match elseData with
          | .noElse branchInst placeholder => do
            let ty ← env.blocktypeParamsResults blocktype
            let (elseBlock, b) ← env.blockWithParams s.builder ty.params
            let s := s.truncateStack frame.originalStackSize
            let b := b.changeJumpDestination branchInst placeholder elseBlock
            pure (elseBlock, { s with builder := b.sealBlock elseBlock })
          | .withElse elseBlock => pure (elseBlock, s.truncateStack frame.originalStackSize)
        pure { s with builder := s.builder.switchToBlock elseBlock }
      else
        pure s
    | _ => panicking "internal error: entered unreachable code"
  | .end_ => do
    let frame ← s.frameAt 0
    let s := { s with controlStack := s.controlStack.tail }
    let s := s.truncateStack (← frame.sizeBefore env.debug)
    let (reachableAnyway, s) :=
      match frame.data with
      | .loop header => (false, { s with builder := s.builder.sealBlock header })
      | .if_ _ _ headIsReachable (some consequentEndsReachable) =>
        (headIsReachable && consequentEndsReachable, s)
      | .if_ _ _ headIsReachable none => (headIsReachable, s)
      | .block => (false, s)
    if frame.exitIsBranchedTo || reachableAnyway then
      let b := (s.builder.switchToBlock frame.followingCode).sealBlock frame.followingCode
      let s := { s with builder := b }.pushn (b.blockParams frame.followingCode)
      pure { s with reachable := true }
    else
      pure s
  | _ => pure s

def translateOperator (s : FuncTranslationState P) (op : Operator P) :
    Fallible Error (FuncTranslationState P) :=
  if !s.reachable then
    (env.translateUnreachableOperator s op : Except Fault _)
  else do
    debugAssert env.debug (!s.builder.isUnreachable) "assertion failed: !builder.is_unreachable()"
    match op with
    | .plain p => env.translatePlainOperator s p
    | .brOnCast .. | .brOnCastFail .. => throw (.unsupported "Garbage Collection Proposal")
    | .tryTable _ | .throw _ | .throwRef => throw (.unsupported "Exception Handling Proposal")
    | op => (env.translateReachableOperator s op : Except Fault _)

end TranslationEnvironment

end K23VM.Cranelift
