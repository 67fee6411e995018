import K23VM.Linker

/-!
# A store and its linkers

The calls that a host makes on a store and on the linkers that it uses with the store.  Which linker an
instance was made with is kept; no call reads it.
-/

namespace K23VM

structure Session where
  store : Store := {}
  linkers : List Linker := []
  /-- The linker of each instance, as it was when the instance was made. -/
  linkedWith : List Linker := []

inductive SessionOp where
  | newLinker
  | aliasModule (linker : ℕ) (order : HashOrder) (module asModule : String)
  | defineInstance (linker : ℕ) (moduleName : String) (instance_ : ℕ)
  | instantiate (linker : ℕ) (debug : Bool) (builtinFunctions : ℕ) (alloc : InstanceAllocator)
    (ev : ConstExprEvaluator) (module : Module)
  | exports (instance_ : ℕ)
  | getExport (instance_ : ℕ) (name : String)
  | getFunc (instance_ : ℕ) (name : String)
  | getTable (instance_ : ℕ) (name : String)
  | getMemory (instance_ : ℕ) (name : String)
  | getGlobal (instance_ : ℕ) (name : String)

namespace Session

variable (session : Session)

def linker (linker : ℕ) : Except Fault Linker := unwrap "no such linker" session.linkers[linker]?

/-- A call on the store alone. -/
def onStore {α : Type} (call : Store → Except Fault (α × Store)) : Except Fault Session := do
  let (_, store) ← call session.store
  pure { session with store }

def step : SessionOp → Except Fault Session
  | .newLinker => pure { session with linkers := session.linkers ++ [Linker.new] }
  | .aliasModule i order module asModule => do
    let (_, linker) ← Linker.aliasModule order (← session.linker i) module asModule
    pure { session with linkers := session.linkers.set i linker }
  | .defineInstance i moduleName instance_ => do
    let ((_, linker), store) ← (← session.linker i).defineInstance session.store moduleName instance_
    pure { session with store, linkers := session.linkers.set i linker }
  | .instantiate i debug builtinFunctions alloc ev module => do
    let linker ← session.linker i
    match ← (linker.instantiate debug builtinFunctions session.store alloc ev module).run with
    | .ok ((_, store), _) => pure { session with store, linkedWith := session.linkedWith ++ [linker] }
    | .error _ => pure session
  | .exports instance_ => session.onStore fun store => store.exports instance_
  | .getExport instance_ name => session.onStore fun store => store.getExport instance_ name
  | .getFunc instance_ name => session.onStore fun store => InstanceHandle.getFunc instance_ store name
  | .getTable instance_ name =>
    session.onStore fun store => InstanceHandle.getTable instance_ store name
  | .getMemory instance_ name =>
    session.onStore fun store => InstanceHandle.getMemory instance_ store name
  | .getGlobal instance_ name =>
    session.onStore fun store => InstanceHandle.getGlobal instance_ store name

end Session

end K23VM
