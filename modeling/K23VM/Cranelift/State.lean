import K23VM.Cranelift.Builder
import K23VM.Lib.Word
import K23VM.Translate.Operators

/-!
# The state of the function translator

A stack of the values that correspond to the operands, and a stack of control frames.  An `if` puts
its parameters on the stack twice, so that they are there for an `else`, and counts them once in the
size it remembers.
-/

namespace K23VM.Cranelift

open Wasmparser

/-- `usize::wrapping_sub`. -/
def wrappingSub (a b : ℕ) : ℕ := (a + (2 ^ 64 - b)) % 2 ^ 64

/-- The block and the instruction that stand for none, `reserved_value()`. -/
def RESERVED : ℕ := 2 ^ 32 - 1

/-- Whether there is a block for the `else` of an `if` already. -/
inductive ElseData where
  /-- A branch that goes to the placeholder, until there is an `else`; it is named by the block it
  ends. -/
  | noElse (branchInst placeholder : ℕ)
  | withElse (elseBlock : ℕ)
  deriving DecidableEq, Repr

/-- What the kinds of frames do not have in common. -/
inductive FrameData where
  | block
  | loop (header : ℕ)
  | if_ (elseData : ElseData) (blocktype : BlockType) (headIsReachable : Bool)
    (consequentEndsReachable : Option Bool)
  deriving DecidableEq, Repr

structure ControlStackFrame where
  destination : ℕ
  numParamValues : ℕ
  numReturnValues : ℕ
  originalStackSize : ℕ
  /-- Never set for a loop. -/
  exitIsBranchedTo : Bool
  data : FrameData
  deriving DecidableEq, Repr

namespace ControlStackFrame

variable (f : ControlStackFrame)

def isLoop : Bool :=
  match f.data with
  | .loop _ => true
  | _ => false

def followingCode : ℕ := f.destination

def brDestination : ℕ :=
  match f.data with
  | .loop header => header
  | _ => f.destination

/-- The number of values that a branch to the frame takes. -/
def brArity : ℕ := if f.isLoop then f.numParamValues else f.numReturnValues

def setBranchedToExit : ControlStackFrame :=
  if f.isLoop then f else { f with exitIsBranchedTo := true }

/-- The size of the stack before the frame, with an `if`'s parameters taken off once more. -/
def sizeBefore (debug : Bool) : Except Fault ℕ :=
  match f.data with
  | .if_ .. => do
    debugAssert debug (f.numParamValues ≤ f.originalStackSize)
      "assertion failed: num_param_values <= self.original_stack_size()"
    pure (wrappingSub f.originalStackSize f.numParamValues)
  | _ => pure f.originalStackSize

end ControlStackFrame

/-- The state of the translator and the builder.  The last value is the top of the stack, the first
frame the innermost one. -/
structure FuncTranslationState (P : Type) where
  stack : List ℕ
  controlStack : List ControlStackFrame
  reachable : Bool
  builder : FunctionBuilder P

namespace FuncTranslationState

variable {P : Type} (debug : Bool) (s : FuncTranslationState P)

def push1 (val : ℕ) : FuncTranslationState P := { s with stack := s.stack ++ [val] }

def pushn (vals : List ℕ) : FuncTranslationState P := { s with stack := s.stack ++ vals }

def pop1 : Except Fault (ℕ × FuncTranslationState P) := do
  let val ← unwrap "attempted to pop a value from an empty stack" s.stack.getLast?
  pure (val, { s with stack := s.stack.dropLast })

def peek1 : Except Fault ℕ :=
  unwrap "attempted to peek at a value on an empty stack" s.stack.getLast?

def pop3 : Except Fault ((ℕ × ℕ × ℕ) × FuncTranslationState P) := do
  let (v3, s) ← s.pop1
  let (v2, s) ← s.pop1
  let (v1, s) ← s.pop1
  pure ((v1, v2, v3), s)

def ensureLengthIsAtLeast (n : ℕ) : Except Fault Unit :=
  debugAssert debug (n ≤ s.stack.length) "attempted to access more values than the stack has"

/-- The stack is cut at a size that wraps around where it is too short, which leaves it as it is. -/
def popn (n : ℕ) : Except Fault (FuncTranslationState P) := do
  s.ensureLengthIsAtLeast debug n
  pure { s with stack := s.stack.take (wrappingSub s.stack.length n) }

def peekn (n : ℕ) : Except Fault (List ℕ) := do
  s.ensureLengthIsAtLeast debug n
  let start := wrappingSub s.stack.length n
  if start ≤ s.stack.length then pure (s.stack.drop start)
  else panicking "range start index out of range for slice"

def pushFrame (destination numParamTypes numResultTypes : ℕ) (data : FrameData) :
    FuncTranslationState P :=
  { s with controlStack :=
      ⟨destination, numParamTypes, numResultTypes, wrappingSub s.stack.length numParamTypes, false,
        data⟩ :: s.controlStack }

def pushBlock (followingCode numParamTypes numResultTypes : ℕ) :
    Except Fault (FuncTranslationState P) := do
  debugAssert debug (numParamTypes ≤ s.stack.length)
    "assertion failed: num_param_types <= self.stack.len()"
  pure (s.pushFrame followingCode numParamTypes numResultTypes .block)

def pushLoop (header followingCode numParamTypes numResultTypes : ℕ) :
    Except Fault (FuncTranslationState P) := do
  debugAssert debug (numParamTypes ≤ s.stack.length)
    "assertion failed: num_param_types <= self.stack.len()"
  pure (s.pushFrame followingCode numParamTypes numResultTypes (.loop header))

/-- The range of the parameters that are copied is empty where the stack is too short. -/
def pushIf (destination : ℕ) (elseData : ElseData) (numParamTypes numResultTypes : ℕ)
    (blocktype : BlockType) : Except Fault (FuncTranslationState P) := do
  debugAssert debug (numParamTypes ≤ s.stack.length)
    "assertion failed: num_param_types <= self.stack.len()"
  let params := s.stack.drop (wrappingSub s.stack.length numParamTypes)
  pure ((s.pushn params).pushFrame destination numParamTypes numResultTypes
    (.if_ elseData blocktype s.reachable none))

/-- The frame at a depth. -/
def frameAt (depth : ℕ) : Except Fault ControlStackFrame :=
  unwrap "called `Option::unwrap()` on a `None` value" s.controlStack[depth]?

/-- Note that the frame at a depth is branched to. -/
def setBranchedTo (depth : ℕ) : FuncTranslationState P :=
  { s with controlStack := s.controlStack.modify depth (·.setBranchedToExit) }

def truncateStack (n : ℕ) : FuncTranslationState P := { s with stack := s.stack.take n }

end FuncTranslationState

end K23VM.Cranelift
