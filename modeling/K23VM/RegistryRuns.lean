import K23VM.TypeRegistry
import K23VM.Proofs.References

/-!
# Runs of the type registry

The operations an engine performs on its registry, one after the other, with the handles that are
alive in between: collections of registered module types and registered types.  A collection is
kept with the module types it was made of.

`IsoEq` is what the registry is for: two types of two modules are the same type of the engine when
they stand at the same place of rec groups that are equal up to references, where references
inside the groups are equal as positions and references to earlier groups lead to equal types.
-/

namespace K23VM

/-- Ranges that follow each other without a gap. -/
def Consecutive : ℕ → List (ℕ × ℕ) → ℕ → Prop
  | start, [], stop => start = stop
  | start, range :: ranges, stop => range.1 = start ∧ range.1 ≤ range.2
    ∧ Consecutive range.2 ranges stop

/-- The rec groups cover the types, and a type refers to types of its own and earlier groups. -/
structure ModuleTypes.WF (mt : ModuleTypes) : Prop where
  consecutive : Consecutive 0 mt.recGroups mt.wasmTypes.length
  refs : ∀ g ∈ mt.recGroups, ∀ i, g.1 ≤ i → i < g.2 → ∀ t, mt.wasmTypes[i]? = some t →
    ∀ r ∈ references t, ∃ m, r = .module m ∧ m < g.2

/-- Iso-recursive equality of two types. -/
inductive IsoEq (A B : ModuleTypes) : ℕ → ℕ → Prop where
  | mk (ga gb : ℕ × ℕ) (p : ℕ) (hga : ga ∈ A.recGroups) (hgb : gb ∈ B.recGroups)
    (hlen : ga.2 - ga.1 = gb.2 - gb.1) (hp : p < ga.2 - ga.1)
    (hshape : ∀ q < ga.2 - ga.1, ∀ s t, A.wasmTypes[ga.1 + q]? = some s →
      B.wasmTypes[gb.1 + q]? = some t → SameShape s t)
    (hinside : ∀ q < ga.2 - ga.1, ∀ s t, A.wasmTypes[ga.1 + q]? = some s →
      B.wasmTypes[gb.1 + q]? = some t → ∀ r i j : ℕ, (references s)[r]? = some (.module i) →
      (references t)[r]? = some (.module j) →
      (ga.1 ≤ i ↔ gb.1 ≤ j) ∧ (ga.1 ≤ i → i - ga.1 = j - gb.1))
    (houtside : ∀ q < ga.2 - ga.1, ∀ s t, A.wasmTypes[ga.1 + q]? = some s →
      B.wasmTypes[gb.1 + q]? = some t → ∀ r i j : ℕ, (references s)[r]? = some (.module i) →
      (references t)[r]? = some (.module j) → i < ga.1 → IsoEq A B i j) :
    IsoEq A B (ga.1 + p) (gb.1 + p)

/-- A registry with the handles that are alive. -/
structure EngineState where
  reg : TypeRegistryInner
  collections : List (ModuleTypes × RuntimeTypeCollection)
  registered : List RegisteredType

namespace EngineState

def new : EngineState := ⟨.new, [], []⟩

/-- The entries that handles hold, with multiplicity. -/
def roots (s : EngineState) : List ℕ :=
  s.collections.flatMap (fun p => p.2.recGroups) ++ s.registered.map RegisteredType.entry

end EngineState

/-- What an engine does with its registry; a handle is named by its place among those alive. -/
inductive RegistryOp where
  | registerModuleTypes (types : ModuleTypes)
  | dropCollection (n : ℕ)
  | getType (index : ℕ)
  | cloneType (n : ℕ)
  | dropType (n : ℕ)

/-- The operations on module types that are well formed. -/
def RegistryOp.WF : RegistryOp → Prop
  | .registerModuleTypes mt => mt.WF
  | _ => True

namespace EngineState

/-- Dropping a `RuntimeTypeCollection`. -/
def dropCollection (debug : Bool) (reg : TypeRegistryInner) (c : RuntimeTypeCollection) :
    Except Fault TypeRegistryInner :=
  if c.recGroups.isEmpty then pure reg else reg.unregisterTypeCollection debug c.recGroups

def step (debug : Bool) (π : SlabPolicy) (s : EngineState) : RegistryOp → Except Fault EngineState
  | .registerModuleTypes mt => do
    let (reg, recGroups, types) ← s.reg.registerModuleTypes debug π mt
    pure { s with reg, collections := (mt, ⟨recGroups, types⟩) :: s.collections }
  | .dropCollection n =>
    match s.collections[n]? with
    | none => pure s
    | some p => do
      let reg ← dropCollection debug s.reg p.2
      pure { s with reg, collections := s.collections.eraseIdx n }
  | .getType index => do
    let (reg, handle) ← s.reg.getType debug index
    pure { s with reg, registered := handle.toList ++ s.registered }
  | .cloneType n =>
    match s.registered[n]? with
    | none => pure s
    | some r => pure { s with reg := s.reg.incrRefCount r.entry, registered := r :: s.registered }
  | .dropType n =>
    match s.registered[n]? with
    | none => pure s
    | some r => do
      let reg ← s.reg.release debug r.entry
      pure { s with reg, registered := s.registered.eraseIdx n }

/-- The states that runs of well-formed operations from a new registry reach. -/
inductive Reachable (debug : Bool) (π : SlabPolicy) : EngineState → Prop where
  | new : Reachable debug π new
  | step {s s' : EngineState} {op : RegistryOp} (hs : Reachable debug π s) (hop : op.WF)
    (h : s.step debug π op = .ok s') : Reachable debug π s'

/-- Perform operations one after the other. -/
def run (debug : Bool) (π : SlabPolicy) : EngineState → List RegistryOp → Except Fault EngineState
  | s, [] => pure s
  | s, op :: ops => do run debug π (← s.step debug π op) ops

theorem reachable_of_run {debug : Bool} {π : SlabPolicy} : ∀ {ops : List RegistryOp}
    {s s' : EngineState}, Reachable debug π s → (∀ op ∈ ops, op.WF) →
    s.run debug π ops = .ok s' → Reachable debug π s'
  | [], _, _, hs, _, h => by
    obtain rfl := Except.ok.inj h
    exact hs
  | op :: ops, _, _, hs, hop, h => by
    obtain ⟨s₁, h₁, h⟩ := bind_eq_ok.1 h
    exact reachable_of_run (.step hs (hop op List.mem_cons_self) h₁)
      (fun op hm => hop op (List.mem_cons_of_mem _ hm)) h

end EngineState

end K23VM
