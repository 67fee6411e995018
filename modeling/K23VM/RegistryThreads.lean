import K23VM.RegistryRuns

/-!
# Threads on the type registry

The registry is behind a lock, but the counts of its entries are not.  Dropping a `RegisteredType`
takes two steps: the count is lowered without the lock, and only where that was the last
registration the thread takes the lock and unregisters the entry.  Other threads may run in
between; the thread itself does nothing else.  Everything else a thread does is one step.

Handles may be moved and borrowed between threads, so that any thread can act on any handle.
-/

namespace K23VM

/-- What a thread does in one step: `dropType` is the decrement of a drop without the lock,
`unregister` the locked call that follows it. -/
inductive ThreadOp where
  | registerModuleTypes (types : ModuleTypes)
  | dropCollection (n : ℕ)
  | getType (index : ℕ)
  | cloneType (n : ℕ)
  | dropType (n : ℕ)
  | unregister

def ThreadOp.WF : ThreadOp → Prop
  | .registerModuleTypes mt => mt.WF
  | _ => True

/-- An engine with the threads that are inside a drop and the entry each saw the last registration
of go. -/
structure ThreadedState where
  engine : EngineState
  pending : List (ℕ × ℕ)

namespace ThreadedState

def new : ThreadedState := ⟨.new, []⟩

/-- The lock-free decrement of `RegisteredType::drop`. -/
def dropType (s : ThreadedState) (t n : ℕ) : Except Fault ThreadedState :=
  match s.engine.registered[n]? with
  | none => pure s
  | some r => do
    let (reg, last) ← s.engine.reg.decrRefCount r.entry
    pure
      { engine := { s.engine with reg, registered := s.engine.registered.eraseIdx n }
        pending := if last then (t, r.entry) :: s.pending else s.pending }

/-- The locked call of `unregister_entry` that ends a drop of the last registration. -/
def unregister (debug : Bool) (s : ThreadedState) (t e : ℕ) : Except Fault ThreadedState := do
  let reg ← s.engine.reg.unregisterEntry debug e
  pure { engine := { s.engine with reg }, pending := s.pending.erase (t, e) }

/-- The entry that the thread `t` is about to unregister. -/
def pendingOf (s : ThreadedState) (t : ℕ) : Option ℕ := s.pending.lookup t

/-- One step of the thread `t`; a step that it cannot take changes nothing. -/
def step (debug : Bool) (π : SlabPolicy) (s : ThreadedState) (t : ℕ) (op : ThreadOp) :
    Except Fault ThreadedState :=
  match s.pendingOf t, op with
  | some e, .unregister => s.unregister debug t e
  | some _, _ => pure s
  | none, .unregister => pure s
  | none, .dropType n => s.dropType t n
  | none, .registerModuleTypes mt => do
    pure { s with engine := ← s.engine.step debug π (.registerModuleTypes mt) }
  | none, .dropCollection n => do
    pure { s with engine := ← s.engine.step debug π (.dropCollection n) }
  | none, .getType index => do
    pure { s with engine := ← s.engine.step debug π (.getType index) }
  | none, .cloneType n => do
    pure { s with engine := ← s.engine.step debug π (.cloneType n) }

/-- Perform steps of threads in the given order. -/
def run (debug : Bool) (π : SlabPolicy) : ThreadedState → List (ℕ × ThreadOp) →
    Except Fault ThreadedState
  | s, [] => pure s
  | s, (t, op) :: ops => do run debug π (← s.step debug π t op) ops

end ThreadedState

end K23VM
