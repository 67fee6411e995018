import K23VM.Linker
import Mathlib.Logic.Function.Basic

/-!
# Calling functions

Every WebAssembly function compares the stack pointer with the stack limit in its own vmctx when it is
entered.  A call from the host writes the limit into the vmctx of the function it calls, and restores
what was there when it returns or traps.  Calls in WebAssembly pass on the vmctx of the callee.

The words at the stack limits are the memory here.  Which functions call each other is up to the code,
which may call each function that it can name or find in a table; host code that is called may call
back.
-/

namespace K23VM

def MAX_WASM_STACK : ℕ := 512 * 1024

/-- The words in memory, by their addresses. -/
abbrev Words := ℕ → ℕ

/-! ## Entering -/

structure WasmExecutionGuard where
  stackLimitPtr : ℕ
  prevStack : ℕ
  deriving DecidableEq, Repr

def enterWasm (words : Words) (stackPointer vmctx : ℕ) (offsets : StaticVMOffsets) :
    Except Fault (WasmExecutionGuard × Words) := do
  let wasmStackLimit ← checkedSub stackPointer MAX_WASM_STACK
  let stackLimitPtr := vmctx + offsets.vmctxStackLimit
  pure (⟨stackLimitPtr, words stackLimitPtr⟩, Function.update words stackLimitPtr wasmStackLimit)

def WasmExecutionGuard.drop (guard : WasmExecutionGuard) (words : Words) : Words :=
  Function.update words guard.stackLimitPtr guard.prevStack

/-- `call_unchecked_raw`, up to the call: the vmctx that is entered, the guard, and the words. -/
def Store.enterFunc (store : Store) (words : Words) (stackPointer func : ℕ) :
    Except Fault (ℕ × WasmExecutionGuard × Words) := do
  let export_ ← index store.exportedFuncs func
  let vmctx := export_.funcRef.vmctx
  let instance_ ← index store.instances (← store.getInstanceFromVmctx vmctx)
  let (guard, words) ← enterWasm words stackPointer vmctx instance_.module.offsets.static_
  pure (vmctx, guard, words)

/-! ## Emitted code -/

/-- The global value that the prologue of a compiled function compares the stack pointer with. -/
def loadStackLimit (words : Words) (vmctx : ℕ) : ℕ :=
  words (vmctx + (⟨8⟩ : StaticVMOffsets).vmctxStackLimit)

/-- The record that was last written at an offset of a vmctx. -/
def OwnedVMContext.read (vmctx : OwnedVMContext) (offset : ℕ) : Option VMRecord :=
  (vmctx.writes.reverse.find? fun w => w.offset = offset).map VMWrite.record

/-- The vmctx that `direct_call` passes to the function `calleeIndex`. -/
def Instance.directCallVmctx (instance_ : Instance) (calleeIndex : ℕ) : Option ℕ :=
  if !instance_.module.translated.isImportedFunc calleeIndex then
    if calleeIndex < instance_.module.translated.functions.length then some instance_.vmctx.address
    else none
  else
    match instance_.module.offsets.vmctxVmfunctionImport calleeIndex with
    | .ok offset =>
      match instance_.vmctx.read offset with
      | some (.functionImport record) => some record.vmctx
      | _ => none
    | .error _ => none

/-- The func refs of all instances, which are what tables can hold. -/
def Store.funcRefs (store : Store) : List VMFuncRef :=
  store.instances.flatMap fun instance_ => instance_.vmctx.writes.filterMap fun w =>
    match w.record with
    | .funcRef record => some record
    | _ => none

/-! ## Activations -/

inductive Frame where
  /-- A call from the host, which entered an instance. -/
  | host (vmctx stackPointer : ℕ) (guard : WasmExecutionGuard)
  | wasm (vmctx : ℕ)
  deriving DecidableEq, Repr

/-- The vmctx and the stack pointer of the innermost call from the host. -/
def innermost : List Frame → Option (ℕ × ℕ)
  | [] => none
  | .host vmctx stackPointer _ :: _ => some (vmctx, stackPointer)
  | .wasm _ :: frames => innermost frames

/-- That a WebAssembly function was entered. -/
structure Entry where
  vmctx : ℕ
  /-- What its prologue loaded. -/
  stackLimit : ℕ
  /-- The vmctx and the stack pointer of the innermost call from the host. -/
  enclosing : ℕ × ℕ
  deriving DecidableEq, Repr

structure Activation where
  words : Words
  /-- The innermost frame first. -/
  frames : List Frame
  /-- The last entry first. -/
  entries : List Entry

inductive Event where
  /-- Host code with the given stack pointer calls a function of the store. -/
  | call (func stackPointer : ℕ)
  | direct (calleeIndex : ℕ)
  | indirect (funcRef : VMFuncRef)
  /-- A WebAssembly function returns. -/
  | ret
  /-- A call from the host returns, and drops its guard. -/
  | leave
  /-- A trap unwinds the stack to the innermost call from the host, which returns an error. -/
  | trap
  deriving DecidableEq, Repr

namespace Activation

def start (words : Words) : Activation := ⟨words, [], []⟩

/-- A WebAssembly function of the instance with the given vmctx is entered. -/
def enter (a : Activation) (vmctx : ℕ) : Option Activation :=
  (innermost a.frames).map fun enclosing =>
    { a with
      frames := .wasm vmctx :: a.frames
      entries := ⟨vmctx, loadStackLimit a.words vmctx, enclosing⟩ :: a.entries }

/-- The vmctx that a call in WebAssembly passes on. -/
def calleeVmctx (store : Store) (a : Activation) : Event → Option ℕ
  | .direct calleeIndex =>
    match a.frames with
    | .wasm vmctx :: _ =>
      ((store.vmctx2instance.lookup vmctx).bind (store.instances[·]?)).bind
        (Instance.directCallVmctx · calleeIndex)
    | _ => none
  | .indirect funcRef =>
    match a.frames with
    | .wasm _ :: _ => if funcRef ∈ store.funcRefs then some funcRef.vmctx else none
    | _ => none
  | _ => none

/-- The host can call where nothing runs, or where host code was called, further down the stack. -/
def canCall (a : Activation) (stackPointer : ℕ) : Bool :=
  match a.frames with
  | .host _ _ _ :: _ => false
  | frames => (innermost frames).all fun enclosing => stackPointer < enclosing.2

/-- Unwind the stack to the innermost call from the host, and return from it. -/
def unwind (words : Words) (entries : List Entry) : List Frame → Option Activation
  | .host _ _ guard :: frames => some ⟨guard.drop words, frames, entries⟩
  | .wasm _ :: frames => unwind words entries frames
  | [] => none

/-- One step, where it is possible. -/
def step (store : Store) (a : Activation) : Event → Option Activation
  | .call func stackPointer =>
    if a.canCall stackPointer then
      match store.enterFunc a.words stackPointer func with
      | .ok (vmctx, guard, words) =>
        enter { a with words, frames := .host vmctx stackPointer guard :: a.frames } vmctx
      | .error _ => none
    else none
  | .direct calleeIndex => (a.calleeVmctx store (.direct calleeIndex)).bind a.enter
  | .indirect funcRef => (a.calleeVmctx store (.indirect funcRef)).bind a.enter
  | .ret =>
    match a.frames with
    | .wasm _ :: frames => some { a with frames }
    | _ => none
  | .leave =>
    match a.frames with
    | .host _ _ guard :: frames => some ⟨guard.drop a.words, frames, a.entries⟩
    | _ => none
  | .trap =>
    match a.frames with
    | .wasm _ :: frames => unwind a.words a.entries frames
    | _ => none

def run (store : Store) (a : Activation) : List Event → Option Activation
  | [] => some a
  | event :: events => (a.step store event).bind (run store · events)

end Activation

end K23VM
