import K23VM.Runtime.ConstEval

/-!
# Values of the host

The values that the host passes to a function and gets from it, and the slots of sixteen bytes that they
are passed in.
-/

namespace K23VM

/-- `VMVal::funcref`. -/
def VMVal.funcref (ptr : ℕ) : VMVal := ⟨BitVec.ofNat 128 (ptr % 2 ^ 64)⟩

/-- A float is given by its bits, a function by its handle. -/
inductive Val where
  | i32 (i : BitVec 32)
  | i64 (i : BitVec 64)
  | f32 (u : BitVec 32)
  | f64 (u : BitVec 64)
  | v128 (b : BitVec 128)
  | funcRef (f : Option ℕ)
  deriving DecidableEq, Repr

namespace Val

/-- The slot for a value; `asRaw` has the pointers of functions. -/
def asVmval (asRaw : ℕ → ℕ) : Val → VMVal
  | i32 i => .i32 i
  | i64 i => .i64 i
  | f32 u => .f32 u
  | f64 u => .f64 u
  | v128 b => ⟨b⟩
  | funcRef (some f) => .funcref (asRaw f)
  | funcRef none => .funcref 0

/-- How many bytes of the slot for a value are initialized. -/
def initialized : Val → ℕ
  | i32 _ | i64 _ | f64 _ | funcRef _ => 8
  | f32 _ => 4
  | v128 _ => 16

def fromVmval (raw : VMVal) : WasmValType → Except Fault Val
  | .i32 => pure (.i32 raw.getI32)
  | .i64 => pure (.i64 raw.getI64)
  | .f32 => pure (.f32 raw.getF32)
  | .f64 => pure (.f64 raw.getF64)
  | .v128 => pure (.v128 raw.getV128)
  | .ref _ => panicking "not yet implemented"

end Val

end K23VM
