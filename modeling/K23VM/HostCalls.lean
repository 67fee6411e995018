import K23VM.TrapHandling

/-!
# Calls from the host

A call of `call_unchecked_raw` is guarded twice: a `WasmExecutionGuard` has the stack limit that it
replaced, and the `CallThreadState` of its `catch_traps` has the other words of the vmctx.  The state is
dropped first, where the call returns as where it is jumped to; the guard outlives it.
-/

namespace K23VM

inductive HostEvent where
  /-- `call_unchecked_raw` is called, by code with the given stack pointer; the state of the call lies at
  the given address. -/
  | call (stackPointer address vmctx : ℕ) (offsets : StaticVMOffsets)
  /-- Emitted code writes a word. -/
  | store (address value : ℕ)
  /-- The innermost call returns. -/
  | ret
  | raiseTrap (trap : Trap)
  | signal (pc : ℕ) (faultingAddr : Option ℕ) (trap : Trap)
  deriving DecidableEq, Repr

/-- A thread with the guards of the calls that have not ended, the innermost one first. -/
structure HostStack where
  stack : CallStack
  guards : List WasmExecutionGuard

namespace HostStack

def start (words : Words) : HostStack := ⟨.start words, []⟩

def words (s : HostStack) : Words := s.stack.thread.words

/-- A call of `catch_traps` has ended with the given stack; the call around it drops its guard.  The
guards of calls whose frames were discarded are not dropped. -/
def leave (s : HostStack) (stack : CallStack) : Except Fault HostStack :=
  match s.guards.drop (s.guards.length - stack.live.length - 1) with
  | [] => panicking "nothing to return from"
  | guard :: guards =>
    pure ⟨{ stack with thread.words := guard.drop stack.thread.words }, guards⟩

def step (s : HostStack) : HostEvent → Except Fault HostStack
  | .call stackPointer address vmctx offsets => do
    let (guard, words) ← enterWasm s.words stackPointer vmctx offsets
    let stack ← { s.stack with thread.words := words }.step (.catchTraps address vmctx offsets)
    pure ⟨stack, guard :: s.guards⟩
  | .store address value => do
    let stack ← s.stack.step (.store address value)
    pure { s with stack }
  | .ret => do s.leave (← s.stack.step .ret)
  | .raiseTrap trap => do s.leave (← s.stack.step (.raiseTrap trap))
  | .signal pc faultingAddr trap => do s.leave (← s.stack.step (.signal pc faultingAddr (some trap)))

def run (s : HostStack) : List HostEvent → Except Fault HostStack
  | [] => pure s
  | event :: events => do run (← s.step event) events

end HostStack

end K23VM
