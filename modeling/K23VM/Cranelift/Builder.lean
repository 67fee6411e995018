import Mathlib.Data.List.Range
import Mathlib.Logic.Function.Basic
import K23VM.Lib.Fault
import K23VM.Trap

/-!
# Building the blocks of a function

The blocks of a function in the code generator's language.  A block has parameters, instructions and,
once it is filled, a terminator, whose edges pass arguments to the parameters of other blocks.
Blocks and values are numbered in the order they are made.  The builder puts instructions into the
block at its position.

Reading and writing a variable are instructions here, and all that one plain operator emits is the one
instruction `ClifInst.op`.
-/

namespace K23VM.Cranelift

inductive Ty where
  | I8 | I16 | I32 | I64 | F32 | F64 | I8X16 | I16X8 | I32X4 | I64X2 | F32X4 | F64X2
  deriving DecidableEq, Repr

def Ty.isVector : Ty → Bool
  | .I8X16 | .I16X8 | .I32X4 | .I64X2 | .F32X4 | .F64X2 => true
  | .I8 | .I16 | .I32 | .I64 | .F32 | .F64 => false

def Ty.bytes : Ty → ℕ
  | .I8 => 1
  | .I16 => 2
  | .I32 | .F32 => 4
  | .I64 | .F64 => 8
  | .I8X16 | .I16X8 | .I32X4 | .I64X2 | .F32X4 | .F64X2 => 16

structure IrSignature where
  params : List Ty
  returns : List Ty
  deriving DecidableEq, Repr

/-- An instruction; `P` names the plain operators and the calls. -/
inductive ClifInst (P : Type) where
  | op (p : P) (args results : List ℕ)
  | call (p : P) (sig : IrSignature) (args results : List ℕ)
  /-- The vmctx of a callee that has its own. -/
  | calleeVmctx (p : P) (result : ℕ)
  | bitcast (ty : Ty) (arg result : ℕ)
  | select (cond x y result : ℕ)
  | isNull (arg result : ℕ)
  | trapnz (cond : ℕ) (code : TrapCode)
  /-- The zero of a type. -/
  | zero (result : ℕ)
  | useVar (var result : ℕ)
  | defVar (var arg : ℕ)

/-- An edge to a block, with the arguments for its parameters. -/
structure BlockCall where
  block : ℕ
  args : List ℕ
  deriving DecidableEq, Repr

inductive Terminator where
  | jump (dest : BlockCall)
  | brif (cond : ℕ) (thenDest elseDest : BlockCall)
  | brTable (val : ℕ) (targets : List ℕ) (default : ℕ)
  | return_ (args : List ℕ)
  | trap (code : TrapCode)
  deriving DecidableEq, Repr

/-- The edges that leave a block. -/
def Terminator.edges : Terminator → List BlockCall
  | .jump dest => [dest]
  | .brif _ thenDest elseDest => [thenDest, elseDest]
  | .brTable _ targets default => (targets ++ [default]).map fun block => ⟨block, []⟩
  | .return_ _ | .trap _ => []

def BlockCall.setBlock (old new : ℕ) (call : BlockCall) : BlockCall :=
  if call.block = old then ⟨new, call.args⟩ else call

/-- Send the edges to one block to another. -/
def Terminator.changeDestination (old new : ℕ) : Terminator → Terminator
  | .jump dest => .jump (dest.setBlock old new)
  | .brif cond thenDest elseDest => .brif cond (thenDest.setBlock old new) (elseDest.setBlock old new)
  | .brTable val targets default =>
    .brTable val (targets.map fun b => if b = old then new else b) (if default = old then new else default)
  | t => t

structure BlockData (P : Type) where
  params : List ℕ
  insts : List (ClifInst P)
  terminator : Option Terminator
  sealed : Bool

instance {P : Type} : Inhabited (BlockData P) := ⟨⟨[], [], none, false⟩⟩

structure FunctionBuilder (P : Type) where
  numBlocks : ℕ
  blocks : ℕ → BlockData P
  numValues : ℕ
  valueType : ℕ → Ty
  /-- The types of the declared variables. -/
  vars : List Ty
  /-- The types that the function returns. -/
  returns : List Ty
  entry : ℕ
  position : ℕ

namespace FunctionBuilder

variable {P : Type}

def modifyBlock (b : FunctionBuilder P) (block : ℕ) (f : BlockData P → BlockData P) :
    FunctionBuilder P :=
  { b with blocks := Function.update b.blocks block (f (b.blocks block)) }

def createBlock (b : FunctionBuilder P) : ℕ × FunctionBuilder P :=
  (b.numBlocks, { b with
    numBlocks := b.numBlocks + 1
    blocks := Function.update b.blocks b.numBlocks ⟨[], [], none, false⟩ })

def makeValue (b : FunctionBuilder P) (ty : Ty) : ℕ × FunctionBuilder P :=
  (b.numValues, { b with
    numValues := b.numValues + 1
    valueType := Function.update b.valueType b.numValues ty })

/-- Values of the given types, in order. -/
def makeValues (b : FunctionBuilder P) : List Ty → List ℕ × FunctionBuilder P
  | [] => ([], b)
  | ty :: tys =>
    let (v, b) := b.makeValue ty
    let (vs, b) := b.makeValues tys
    (v :: vs, b)

def appendBlockParams (b : FunctionBuilder P) (block : ℕ) (tys : List Ty) : FunctionBuilder P :=
  let (vs, b) := b.makeValues tys
  b.modifyBlock block fun d => { d with params := d.params ++ vs }

def blockParams (b : FunctionBuilder P) (block : ℕ) : List ℕ := (b.blocks block).params

def switchToBlock (b : FunctionBuilder P) (block : ℕ) : FunctionBuilder P :=
  { b with position := block }

def sealBlock (b : FunctionBuilder P) (block : ℕ) : FunctionBuilder P :=
  b.modifyBlock block fun d => { d with sealed := true }

/-- Put an instruction at the end of the current block. -/
def insert (b : FunctionBuilder P) (inst : ClifInst P) : FunctionBuilder P :=
  b.modifyBlock b.position fun d => { d with insts := d.insts ++ [inst] }

/-- Put an instruction with one result at the end of the current block. -/
def ins (b : FunctionBuilder P) (ty : Ty) (mk : ℕ → ClifInst P) : ℕ × FunctionBuilder P :=
  let (v, b) := b.makeValue ty
  (v, b.insert (mk v))

/-- End the current block. -/
def terminate (b : FunctionBuilder P) (t : Terminator) : FunctionBuilder P :=
  b.modifyBlock b.position fun d => { d with terminator := some t }

/-- Send the edges of the branch that ends `inst` from one block to another. -/
def changeJumpDestination (b : FunctionBuilder P) (inst old new : ℕ) : FunctionBuilder P :=
  b.modifyBlock inst fun d => { d with terminator := d.terminator.map (·.changeDestination old new) }

/-- Whether an edge goes to a block. -/
def hasAnyPredecessors (b : FunctionBuilder P) (block : ℕ) : Bool :=
  (List.range b.numBlocks).any fun i =>
    ((b.blocks i).terminator.elim [] Terminator.edges).any fun call => call.block == block

/-- The current block is not the entry and no edge to it can come any more. -/
def isUnreachable (b : FunctionBuilder P) : Bool :=
  b.position != b.entry && (b.blocks b.position).sealed && !b.hasAnyPredecessors b.position

def useVar (b : FunctionBuilder P) (var : ℕ) : Except Fault (ℕ × FunctionBuilder P) := do
  let ty ← unwrap "variable is used but never declared" b.vars[var]?
  pure (b.ins ty (.useVar var))

def defVar (b : FunctionBuilder P) (var val : ℕ) : Except Fault (FunctionBuilder P) := do
  let ty ← unwrap "variable is used but its type has not been declared" b.vars[var]?
  assertThat (ty = b.valueType val) "declared type of variable doesn't match type of value"
  pure (b.insert (.defVar var val))

end FunctionBuilder

end K23VM.Cranelift
