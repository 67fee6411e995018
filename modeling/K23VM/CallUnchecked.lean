import K23VM.Cranelift.ArrayToWasm
import K23VM.Values

/-!
# Calls with values

A call from the host passes its arguments in a vector of slots, in which the function leaves its results.
The vector is kept by the store between calls, to be used again.
-/

namespace K23VM

/-! ## The vector of slots -/

/-- A `Vec<VMVal>`. -/
structure VMValVec where
  ptr : ℕ
  len : ℕ
  capacity : ℕ
  deriving DecidableEq, Repr

namespace VMValVec

/-- `Vec::new`, with a dangling pointer. -/
def new : VMValVec := ⟨8, 0, 0⟩

/-- `resize_with`, where the new slots are zero.  Where the slots do not fit they are moved to new memory,
whose address `alloc` has. -/
def resizeWithZero (alloc : ℕ → ℕ) (v : VMValVec) (bytes : ByteMemory) (newLen : ℕ) :
    VMValVec × ByteMemory :=
  let ptr := if newLen ≤ v.capacity then v.ptr else alloc (16 * newLen)
  let moved : ByteMemory := fun a =>
    if ptr ≤ a ∧ a < ptr + 16 * v.len then bytes (v.ptr + (a - ptr)) else bytes a
  let filled : ByteMemory := fun a =>
    if ptr + 16 * v.len ≤ a ∧ a < ptr + 16 * newLen then 0 else moved a
  (⟨ptr, newLen, max v.capacity newLen⟩, filled)

def truncate (v : VMValVec) (len : ℕ) : VMValVec := { v with len := min v.len len }

def get (v : VMValVec) (bytes : ByteMemory) (i : ℕ) : VMVal :=
  ⟨BitVec.ofNat 128 (bytes.load (v.ptr + i * 16) 16)⟩

end VMValVec

/-- What is written into a slot: the bytes that are not initialized are those of `junk`. -/
def VMVal.slotWord (val : VMVal) (initialized junk : ℕ) : ℕ :=
  val.v128.toNat % 256 ^ initialized + 256 ^ initialized * junk

/-! ## The call -/

/-- What the store knows of a function. -/
structure ArrayFunc where
  ty : WasmFuncType
  vmctx : ℕ
  arrayCall : VMArrayCallFunction

namespace Func

def trapError (reason : TrapReason) : Error :=
  match reason with
  | .wasm trap => .trap trap "k23 builtin produced a trap"
  | .jit _ _ trap => .trap trap "JIT-compiled WASM produced a trap"

/-- `call_unchecked_raw`, for a function that is found. -/
def callUncheckedRaw (off : StaticVMOffsets) (stackPointer : ℕ) (func : ArrayFunc) (mem : HostMemory)
    (argsResultsPtr argsResultsLen : ℕ) : Except Fault (Except Error Unit × HostMemory) := do
  let (guard, words) ← enterWasm mem.words stackPointer func.vmctx off
  let state := CallThreadState.new words func.vmctx off
  let (res, mem) := func.arrayCall func.vmctx func.vmctx argsResultsPtr argsResultsLen
    { mem with words }
  let mem := { mem with words := guard.drop (state.drop mem.words) }
  match res with
  | .error reason => pure (.error (trapError reason), mem)
  | .ok () => pure (.ok (), mem)

/-- The slots with the arguments in them. -/
def copyArguments (asRaw junk : ℕ → ℕ) (values : VMValVec) (bytes : ByteMemory) (params : List Val) :
    ByteMemory :=
  bytes.storeSlots values.ptr 16 <| (params.take values.len).zipIdx.map fun (arg, i) =>
    (16, (arg.asVmval asRaw).slotWord arg.initialized (junk i))

/-- The results that are copied out of the slots, over those that were there. -/
def copyResults (ty : WasmFuncType) (values : VMValVec) (bytes : ByteMemory) (results : List Val) :
    Except Fault (List Val) := do
  let copied ← (List.range (min results.length values.len)).mapM fun i => do
    let ty ← unwrap "index out of bounds" ty.results[i]?
    Val.fromVmval (values.get bytes i) ty
  pure (copied ++ results.drop values.len)

/-- `call_unchecked`: what is returned, the results, and the vector that the store is left with. -/
def callUnchecked (debug : Bool) (alloc asRaw junk : ℕ → ℕ) (off : StaticVMOffsets)
    (stackPointer : ℕ) (func : ArrayFunc) (storage : VMValVec) (mem : HostMemory)
    (params results : List Val) :
    Except Fault (Except Error Unit × List Val × VMValVec × HostMemory) := do
  let valuesVecSize := max params.length func.ty.results.length
  -- The vector is taken, and a new one is left.
  debugAssert debug (storage.len = 0) "assertion failed: values_vec.is_empty()"
  let (values, bytes) := storage.resizeWithZero alloc mem.bytes valuesVecSize
  let bytes := copyArguments asRaw junk values bytes params
  let (res, mem) ←
    callUncheckedRaw off stackPointer func { mem with bytes } values.ptr valuesVecSize
  match res with
  | .error e => pure (.error e, results, VMValVec.new, mem)
  | .ok () => do
    let results ← copyResults func.ty values mem.bytes results
    pure (.ok (), results, values.truncate 0, mem)

end Func

end K23VM
