import K23VM.HostCalls

/-!
# Backtraces

The frames of WebAssembly code are walked for each activation, from where the code was left up to the
trampoline that entered it.  Where the newest activation was left and entered is in the words of its
vmctx, unless a trap gives where it was left; for the older ones it is in the states of the calls.
-/

namespace K23VM

namespace Backtrace

structure Frame where
  pc : ℕ
  fp : ℕ
  deriving DecidableEq, Repr

/-- The loop of `trace_through_wasm`, where a frame pointer is aligned as on `x86_64`; `stack` has the
words of the stack. -/
def traceFrames (stack : Words) (pc fp trampolineFp : ℕ) : Except Fault (List Frame) :=
  if fp = trampolineFp then pure []
  else if _h : fp < trampolineFp then
    if fp % 16 = 0 then
      if _h' : fp < stack fp then do
        let frames ← traceFrames stack (stack (fp + 8)) (stack fp) trampolineFp
        pure (⟨pc, fp⟩ :: frames)
      else panicking "assertion failed: next_older_fp > fp"
    else panicking "stack should always be aligned to 16"
  else panicking "assertion failed: trampoline_fp > fp"
termination_by trampolineFp - fp

def traceThroughWasm (stack : Words) (pc fp trampolineFp : ℕ) : Except Fault (List Frame) := do
  assertThat (pc ≠ 0) "assertion `left != right` failed"
  assertThat (fp ≠ 0) "assertion `left != right` failed"
  assertThat (trampolineFp ≠ 0) "assertion `left != right` failed"
  traceFrames stack pc fp trampolineFp

/-- Walk the activations that are given by where they were left and entered, up to one that is null. -/
def traceActivations (debug : Bool) (stack : Words) : List (ℕ × ℕ × ℕ) → Except Fault (List Frame)
  | [] => pure []
  | (pc, fp, sp) :: activations =>
    if pc = 0 then do
      debugAssert debug (fp = 0) "assertion `left == right` failed"
      debugAssert debug (sp = 0) "assertion `left == right` failed"
      pure []
    else do
      let frames ← traceThroughWasm stack pc fp sp
      let rest ← traceActivations debug stack activations
      pure (frames ++ rest)

/-- The words that a state has, as an activation. -/
def oldActivation (state : CallThreadState) : ℕ × ℕ × ℕ :=
  (state.oldLastWasmExitPc, state.oldLastWasmExitFp, state.oldLastWasmEntryFp)

/-- `new_with_trap_state`, for the state at `p`, where there are at most `fuel` states. -/
def newWithTrapState (debug : Bool) (stack : Words) (t : Thread) (fuel p : ℕ)
    (trapPcAndFp : Option (ℕ × ℕ)) : Except Fault (List Frame) := do
  let state ← t.deref p
  let lastWasmEntryFp := t.words (state.vmctx + state.offsets.vmctxLastWasmEntryFp)
  let (lastWasmExitPc, lastWasmExitFp) :=
    match trapPcAndFp with
    | some trap => trap
    | none =>
      -- The frame pointer is not that of the exit.
      (t.words (state.vmctx + state.offsets.vmctxLastWasmExitPc),
        t.words (state.vmctx + state.offsets.vmctxLastWasmEntryFp))
  let states ← (← t.iter fuel p).mapM t.deref
  traceActivations debug stack
    ((lastWasmExitPc, lastWasmExitFp, lastWasmEntryFp) :: states.map oldActivation)

end Backtrace

/-- What the trampoline with the given frame pointer stores in the vmctx that it is called with. -/
def saveLastWasmExitFpAndPc (stack : Words) (trampolineFp vmctx : ℕ) : List HostEvent :=
  [.store (vmctx + (⟨8⟩ : StaticVMOffsets).vmctxLastWasmExitFp) (stack trampolineFp),
    .store (vmctx + (⟨8⟩ : StaticVMOffsets).vmctxLastWasmExitPc) (stack (trampolineFp + 8))]

end K23VM
