import K23VM.Func
import K23VM.Lib.Chain

/-!
# Trap handling

A call from the host into WebAssembly runs under a `CallThreadState`, which lies in the stack frame of
the call.  The states of a thread are a list that is threaded through their `prev` pointers, with the
innermost one in the thread-local variable `TLS`.  A trap jumps to the call that `TLS` points to.
-/

namespace K23VM

inductive TrapReason where
  | wasm (trap : Trap)
  | jit (pc : ℕ) (faultingAddr : Option ℕ) (trap : Trap)
  deriving DecidableEq, Repr

/-- The pointers are addresses, with zero for null. -/
structure CallThreadState where
  unwind : Option TrapReason
  offsets : StaticVMOffsets
  vmctx : ℕ
  prev : ℕ
  oldLastWasmExitFp : ℕ
  oldLastWasmExitPc : ℕ
  oldLastWasmEntryFp : ℕ
  deriving DecidableEq, Repr

def CallThreadState.new (words : Words) (vmctx : ℕ) (vmoffsets : StaticVMOffsets) :
    CallThreadState where
  unwind := none
  offsets := vmoffsets
  vmctx := vmctx
  prev := 0
  oldLastWasmExitFp := words (vmctx + vmoffsets.vmctxLastWasmExitFp)
  oldLastWasmExitPc := words (vmctx + vmoffsets.vmctxLastWasmExitPc)
  oldLastWasmEntryFp := words (vmctx + vmoffsets.vmctxLastWasmEntryFp)

/-- What is restored when a state is dropped. -/
def CallThreadState.drop (state : CallThreadState) (words : Words) : Words :=
  let words := Function.update words (state.vmctx + state.offsets.vmctxLastWasmExitFp)
    state.oldLastWasmExitFp
  let words := Function.update words (state.vmctx + state.offsets.vmctxLastWasmExitPc)
    state.oldLastWasmExitPc
  Function.update words (state.vmctx + state.offsets.vmctxLastWasmEntryFp) state.oldLastWasmEntryFp

/-- The memory of a thread. -/
structure Thread where
  tls : Option ℕ
  /-- The states that lie in live stack frames, by their addresses. -/
  states : ℕ → Option CallThreadState
  words : Words

namespace Thread

def deref (t : Thread) (p : ℕ) : Except Fault CallThreadState :=
  unwrap "null or dangling pointer" (t.states p)

def set (t : Thread) (p : ℕ) (state : CallThreadState) : Thread :=
  { t with states := Function.update t.states p (some state) }

def prev (t : Thread) (p : ℕ) : Option ℕ := (t.states p).map CallThreadState.prev

def push (t : Thread) (p : ℕ) : Except Fault Thread := do
  let self ← t.deref p
  assertThat (self.prev = 0) "assertion failed: self.prev.get().is_null()"
  pure ({ t with tls := some p }.set p { self with prev := t.tls.getD 0 })

def pop (t : Thread) (p : ℕ) : Except Fault Thread := do
  let self ← t.deref p
  let head := t.tls.getD 0
  assertThat (head = p) "assertion failed: ptr::eq(head, self)"
  pure ({ t with tls := some self.prev }.set p { self with prev := 0 })

/-- The states from `p` on, of which there are at most `fuel`. -/
def iter (t : Thread) (fuel p : ℕ) : Except Fault (List ℕ) := walk t.prev fuel p

/-- `with`, up to the call of its closure, for a state at the address `p`. -/
def enter (t : Thread) (p vmctx : ℕ) (vmoffsets : StaticVMOffsets) : Except Fault Thread :=
  (t.set p (.new t.words vmctx vmoffsets)).push p

/-- `with`, from where its closure has returned or was jumped out of: the guard pops the state, which is
then read and dropped. -/
def leave (t : Thread) (p : ℕ) (ret : ℤ) : Except Fault (Except TrapReason Unit × Thread) := do
  let t ← t.pop p
  let self ← t.deref p
  let dropped := { t with states := Function.update t.states p none, words := self.drop t.words }
  if ret = 0 then
    pure (.ok (), dropped)
  else
    let reason ← unwrap "the reason is not initialized" self.unwind
    pure (.error reason, dropped)

/-- The state that is jumped to, and the thread with the reason for it. -/
def unwindWith (t : Thread) (p : ℕ) (reason : TrapReason) : Except Fault (ℕ × Thread) := do
  let state ← t.deref p
  pure (p, t.set p { state with unwind := some reason })

def raiseTrap (t : Thread) (reason : TrapReason) : Except Fault (ℕ × Thread) := do
  let p ← unwrap "called `Option::unwrap()` on a `None` value" t.tls
  t.unwindWith p reason

/-- The handler of a signal at `pc`, where the registered code has the given trap; nothing where the
signal is not handled. -/
def trapHandler (t : Thread) (pc : ℕ) (faultingAddr : Option ℕ) (lookup : Option Trap) :
    Except Fault (Option (ℕ × Thread)) :=
  match t.tls with
  | none => pure none
  | some info => do
    let _ ← t.deref info
    match lookup with
    | none => pure none
    | some trap => some <$> t.unwindWith info (.jit pc faultingAddr trap)

end Thread

/-! ## Runs -/

/-- What happens on a thread. -/
inductive ThreadEvent where
  /-- `catch_traps` is called; its state lies at the given address. -/
  | catchTraps (address vmctx : ℕ) (vmoffsets : StaticVMOffsets)
  /-- A word is written. -/
  | store (address value : ℕ)
  /-- The closure of the innermost `catch_traps` returns. -/
  | ret
  | raiseTrap (trap : Trap)
  | signal (pc : ℕ) (faultingAddr : Option ℕ) (lookup : Option Trap)
  deriving DecidableEq, Repr

/-- A thread with its stack. -/
structure CallStack where
  thread : Thread
  /-- The states of the calls of `catch_traps` that have not ended, the innermost one first. -/
  live : List ℕ
  /-- What the last call of `catch_traps` that ended returned. -/
  result : Option (Except TrapReason Unit)

namespace CallStack

def start (words : Words) : CallStack := ⟨⟨none, fun _ => none, words⟩, [], none⟩

/-- Jump to the call with the state at `p`, which discards the frames above it. -/
def longjmp (s : CallStack) (p : ℕ) : Except Fault CallStack := do
  let (result, thread) ← s.thread.leave p 1
  pure ⟨thread, (s.live.dropWhile (· ≠ p)).tail, some result⟩

def step (s : CallStack) : ThreadEvent → Except Fault CallStack
  | .catchTraps address vmctx vmoffsets => do
    let thread ← s.thread.enter address vmctx vmoffsets
    pure { s with thread, live := address :: s.live }
  | .store address value =>
    pure { s with thread.words := Function.update s.thread.words address value }
  | .ret =>
    match s.live with
    | [] => panicking "nothing to return from"
    | p :: live => do
      let (result, thread) ← s.thread.leave p 0
      pure ⟨thread, live, some result⟩
  | .raiseTrap trap => do
    let (p, thread) ← s.thread.raiseTrap (.wasm trap)
    longjmp { s with thread } p
  | .signal pc faultingAddr lookup => do
    match ← s.thread.trapHandler pc faultingAddr lookup with
    | none => pure s
    | some (p, thread) => longjmp { s with thread } p

end CallStack

end K23VM
