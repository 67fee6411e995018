import K23VM.Cranelift.FuncEnv
import K23VM.Lib.ByteMemory
import K23VM.TrapHandling

/-!
# Entering WebAssembly

The trampoline from the array calling convention: it loads the arguments of a function from an array of
slots of sixteen bytes, calls the function, and stores the results in the same slots.
-/

namespace K23VM

namespace Cranelift

/-! ## Emitted code -/

structure ClifValue where
  index : ℕ
  ty : Ty
  deriving DecidableEq, Repr

/-- The instructions of a trampoline, each with the values it defines last. -/
inductive TrampolineInst where
  | load (ty : Ty) (addr offset dst : ℕ)
  | store (val : ClifValue) (addr offset : ℕ)
  /-- Load a word of a vmctx. -/
  | loadWord (addr offset dst : ℕ)
  | storeWord (val addr offset : ℕ)
  | getFramePointer (dst : ℕ)
  | icmpImmEqual (x imm dst : ℕ)
  | icmpImmUnsignedGreaterThanOrEqual (x imm dst : ℕ)
  /-- `trapz` with `TRAP_INTERNAL_ASSERT`. -/
  | trapz (x : ℕ)
  | call (index : ℕ) (args results : List ℕ)
  deriving DecidableEq, Repr

/-- The offset of a slot, as an immediate. -/
def slotOffset (i : ℕ) : Except Fault ℕ :=
  if i * 16 % 2 ^ 64 < 2 ^ 31 then pure (i * 16 % 2 ^ 64)
  else panicking "out of range integral type conversion attempted"

section Compile

variable (debug : Bool) (pointerType : Ty)

def debugAssertEnoughCapacityForLength (length capacity next : ℕ) : List TrampolineInst × ℕ :=
  if debug then
    ([.icmpImmUnsignedGreaterThanOrEqual capacity length next, .trapz next], next + 1)
  else ([], next)

def debugAssertVmctxKind (vmctx expectedVmctxMagic next : ℕ) : List TrampolineInst × ℕ :=
  if debug then
    ([.loadWord vmctx 0 next, .icmpImmEqual next expectedVmctxMagic (next + 1), .trapz (next + 1)],
      next + 2)
  else ([], next)

/-- The values that are loaded, with the offsets they are loaded from. -/
def slotValues (types : List WasmValType) (next : ℕ) : Except Fault (List (ClifValue × ℕ)) :=
  types.zipIdx.mapM fun (ty, i) => do
    let irTy ← valueType pointerType ty
    let offset ← slotOffset i
    pure (⟨next + i, irTy⟩, offset)

def loadValuesFromArray (types : List WasmValType) (valuesVecPtr valuesVecCapacity next : ℕ) :
    Except Fault (List TrampolineInst × List ClifValue × ℕ) := do
  let (check, next) := debugAssertEnoughCapacityForLength debug types.length valuesVecCapacity next
  let results ← slotValues pointerType types next
  pure (check ++ results.map fun (val, offset) => .load val.ty valuesVecPtr offset val.index,
    results.map Prod.fst, next + types.length)

def storeValuesToArray (types : List WasmValType) (values : List ClifValue)
    (valuesVecPtr valuesVecCapacity next : ℕ) : Except Fault (List TrampolineInst) := do
  debugAssert debug (types.length = values.length) "assertion `left == right` failed"
  let (check, _) := debugAssertEnoughCapacityForLength debug types.length valuesVecCapacity next
  let stores ← values.zipIdx.mapM fun (val, i) => do
    let offset ← slotOffset i
    pure (.store val valuesVecPtr offset)
  pure (check ++ stores)

/-- The values that a call defines. -/
def instResults (returns : List Ty) (next : ℕ) : List ClifValue :=
  returns.zipIdx.map fun (ty, i) => ⟨next + i, ty⟩

/-- The parameters of the trampoline are the values up to 3: the vmctx of the function, the vmctx of the
caller, and the pointer and the length of the array. -/
def compileArrayToWasmTrampoline (offsets : StaticVMOffsets) (index : ℕ) (funcTy : WasmFuncType) :
    Except Fault (List TrampolineInst) := do
  let wasmCallSig ← wasmCallSignature pointerType funcTy
  let (loads, args, next) ← loadValuesFromArray debug pointerType funcTy.params 2 3 4
  let (check, next) := debugAssertVmctxKind debug 0 VMCONTEXT_MAGIC next
  let enter := [.getFramePointer next, .storeWord next 0 offsets.vmctxLastWasmEntryFp]
  let results := instResults wasmCallSig.returns (next + 1)
  let call := .call index (0 :: 1 :: args.map ClifValue.index) (results.map ClifValue.index)
  let stores ← storeValuesToArray debug funcTy.results results 2 3 (next + 1 + results.length)
  pure (loads ++ check ++ enter ++ [call] ++ stores)

end Compile

end Cranelift

/-! ## Running it -/

/-- The memory of the host: the bytes of arrays, and the words of the vmctxs. -/
structure HostMemory where
  bytes : ByteMemory
  words : Words

/-- What a function does with its arguments; a trap leaves the memory as it is then. -/
abbrev WasmCode := List ℕ → HostMemory → Except TrapReason (List ℕ) × HostMemory

/-- The same of a function with the array calling convention, of its vmctx, the vmctx of the caller, and
the pointer and the length of the array. -/
abbrev VMArrayCallFunction := ℕ → ℕ → ℕ → ℕ → HostMemory → Except TrapReason Unit × HostMemory

namespace Cranelift

structure TrampolineState where
  env : ℕ → ℕ
  mem : HostMemory

/-- Give values their words, in order. -/
def TrampolineState.define (s : TrampolineState) : List ℕ → List ℕ → TrampolineState
  | dst :: dsts, word :: words => define { s with env := Function.update s.env dst word } dsts words
  | _, _ => s

/-- Run one instruction, at the address `pc`; the error is the trap, with the memory it leaves. -/
def TrampolineInst.run (framePointer pc : ℕ) (code : ℕ → WasmCode) (s : TrampolineState) :
    TrampolineInst → Except (TrapReason × HostMemory) TrampolineState
  | .load ty addr offset dst =>
    .ok { s with
      env := Function.update s.env dst (s.mem.bytes.load (s.env addr + offset) ty.bytes) }
  | .store val addr offset =>
    .ok { s with
      mem.bytes := s.mem.bytes.store (s.env addr + offset) val.ty.bytes (s.env val.index) }
  | .loadWord addr offset dst =>
    .ok { s with env := Function.update s.env dst (s.mem.words (s.env addr + offset)) }
  | .storeWord val addr offset =>
    .ok { s with
      mem.words := Function.update s.mem.words (s.env addr + offset) (s.env val) }
  | .getFramePointer dst => .ok { s with env := Function.update s.env dst framePointer }
  | .icmpImmEqual x imm dst =>
    .ok { s with env := Function.update s.env dst (if s.env x = imm then 1 else 0) }
  | .icmpImmUnsignedGreaterThanOrEqual x imm dst =>
    .ok { s with env := Function.update s.env dst (if imm ≤ s.env x then 1 else 0) }
  | .trapz x => if s.env x = 0 then .error (.jit pc none .internalAssertionFailed, s.mem) else .ok s
  | .call index args results =>
    match code index (args.map s.env) s.mem with
    | (.ok words, mem) => .ok ({ s with mem }.define results words)
    | (.error reason, mem) => .error (reason, mem)

/-- What a function with the array calling convention returns, and the memory it leaves. -/
def trampolineOutcome :
    Except (TrapReason × HostMemory) TrampolineState → Except TrapReason Unit × HostMemory
  | .ok s => (.ok (), s.mem)
  | .error (reason, mem) => (.error reason, mem)

/-- Run a trampoline; the instruction that may trap is at the address `pc`. -/
def runTrampoline (framePointer pc : ℕ) (code : ℕ → WasmCode) (insts : List TrampolineInst) :
    VMArrayCallFunction := fun vmctx callerVmctx valuesVecPtr valuesVecLen mem =>
  let params := [vmctx, callerVmctx, valuesVecPtr, valuesVecLen]
  trampolineOutcome
    (insts.foldlM (TrampolineInst.run framePointer pc code) ⟨fun i => params.getD i 0, mem⟩)

end Cranelift

end K23VM
