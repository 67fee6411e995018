import K23VM.Translate.Module

/-!
# Constant expressions

The interpreter for the expressions that initialize globals and tables and place segments.  It keeps
its stack between expressions, each of which has to leave it empty.
-/

namespace K23VM

/-- A union of sixteen bytes.  The bytes that a constructor does not initialize are zero here. -/
structure VMVal where
  v128 : BitVec 128
  deriving DecidableEq, Repr

namespace VMVal

def i64 (i : BitVec 64) : VMVal := ⟨i.setWidth 128⟩

def i32 (i : BitVec 32) : VMVal := i64 (i.signExtend 64)

def f32 (bits : BitVec 32) : VMVal := ⟨bits.setWidth 128⟩

def f64 (bits : BitVec 64) : VMVal := ⟨bits.setWidth 128⟩

def getI32 (v : VMVal) : BitVec 32 := v.v128.setWidth 32

def getI64 (v : VMVal) : BitVec 64 := v.v128.setWidth 64

def getU64 (v : VMVal) : ℕ := v.getI64.toNat

def getF32 (v : VMVal) : BitVec 32 := v.v128.setWidth 32

def getF64 (v : VMVal) : BitVec 64 := v.v128.setWidth 64

def getV128 (v : VMVal) : BitVec 128 := v.v128

def getFuncref (v : VMVal) : ℕ := (v.v128.setWidth 64).toNat

end VMVal

structure ConstExprEvaluator where
  /-- The values, the topmost first. -/
  stack : List VMVal
  deriving DecidableEq, Repr

namespace ConstExprEvaluator

def push (ev : ConstExprEvaluator) (val : VMVal) : ConstExprEvaluator := ⟨val :: ev.stack⟩

def pop2 (ev : ConstExprEvaluator) : Except Fault ((VMVal × VMVal) × ConstExprEvaluator) :=
  match ev.stack with
  | v₂ :: v₁ :: stack => pure ((v₁, v₂), ⟨stack⟩)
  | _ => panicking "called `Option::unwrap()` on a `None` value"

/-- An operator on two numbers, which wraps around. -/
def binary {w : ℕ} (get : VMVal → BitVec w) (make : BitVec w → VMVal)
    (op : BitVec w → BitVec w → BitVec w) (ev : ConstExprEvaluator) :
    Except Fault ConstExprEvaluator := do
  let ((arg₁, arg₂), ev) ← ev.pop2
  pure (ev.push (make (op (get arg₁) (get arg₂))))

def evalOp (ev : ConstExprEvaluator) : ConstOp → Except Fault ConstExprEvaluator
  | .i32Const value => pure (ev.push (.i32 (.ofInt 32 value)))
  | .i64Const value => pure (ev.push (.i64 (.ofInt 64 value)))
  | .f32Const bits => pure (ev.push (.f32 (.ofNat 32 bits)))
  | .f64Const bits => pure (ev.push (.f64 (.ofNat 64 bits)))
  | .v128Const bits => pure (ev.push ⟨.ofNat 128 bits⟩)
  | .globalGet _ => panicking "not yet implemented"
  | .refI31 => panicking "not yet implemented"
  | .refNull => panicking "not yet implemented"
  | .refFunc _ => panicking "not yet implemented"
  | .i32Add => ev.binary VMVal.getI32 VMVal.i32 (· + ·)
  | .i32Sub => ev.binary VMVal.getI32 VMVal.i32 (· - ·)
  | .i32Mul => ev.binary VMVal.getI32 VMVal.i32 (· * ·)
  | .i64Add => ev.binary VMVal.getI64 VMVal.i64 (· + ·)
  | .i64Sub => ev.binary VMVal.getI64 VMVal.i64 (· - ·)
  | .i64Mul => ev.binary VMVal.getI64 VMVal.i64 (· * ·)

/-- The value of an expression.  The interpreter has no errors to return. -/
def eval (ev : ConstExprEvaluator) (expr : ConstExpr) : Except Fault (VMVal × ConstExprEvaluator) := do
  let ev ← expr.ops.foldlM evalOp ev
  match ev.stack with
  | [val] => pure (val, ⟨[]⟩)
  | _ => panicking "assertion `left == right` failed"

end ConstExprEvaluator

end K23VM
