import Mathlib.Logic.Function.Basic
import K23VM.Lib.Slab
import K23VM.Lib.Word
import K23VM.Translate.ModuleTypes

/-!
# The type registry of an engine

The rec groups of all modules are hash-consed: a group is registered once, under a key in which
references inside the group are relative and references to earlier groups are indices of the
engine.  An entry counts who holds it: slots of module collections, registered types, and
references from other entries' keys; when the count falls to zero the entry is unregistered, which
may in turn drop the count of the entries it refers to.

An entry is a pointer into a heap that is only ever extended, so that an entry that was
unregistered and one registered later are told apart even where the key and the indices are the
same.  `removals` is a history for the proofs; nothing reads it.
-/

namespace K23VM

/-! ## Canonicalization -/

/-- The closure `canonicalize_for_runtime_usage` applies to each reference. -/
def runtimeIndex (moduleToEngine : ℕ → Except Fault ℕ) :
    CanonicalizedTypeIndex → Except Fault CanonicalizedTypeIndex
  | .shared i => pure (.shared i)
  | .recGroup _ => panicking "internal error: entered unreachable code"
  | .module m => do pure (.shared (← moduleToEngine m))

/-- The closure `canonicalize_for_hash_consing` applies to each reference. -/
def hashConsingIndex (debug : Bool) (range : ℕ × ℕ) (moduleToEngine : ℕ → Except Fault ℕ) :
    CanonicalizedTypeIndex → Except Fault CanonicalizedTypeIndex
  | .shared i => pure (.shared i)
  | .recGroup _ => panicking "internal error: entered unreachable code"
  | .module m =>
    if range.1 ≤ m then do
      debugAssert debug (m < range.2) "assertion failed: module_index < rec_group_range.end"
      pure (.recGroup (m - range.1))
    else do
      pure (.shared (← moduleToEngine m))

section Canonicalize

variable {α : Type} [TypeTrace α]

def canonicalizeForRuntimeUsage (moduleToEngine : ℕ → Except Fault ℕ) (a : α) : Except Fault α :=
  traceMut (runtimeIndex moduleToEngine) a

def isCanonicalizedForRuntimeUsage (a : α) : Bool :=
  (trace a).all fun
    | .shared _ => true
    | .module _ | .recGroup _ => false

def canonicalizeForHashConsing (debug : Bool) (range : ℕ × ℕ) (moduleToEngine : ℕ → Except Fault ℕ)
    (a : α) : Except Fault α :=
  traceMut (hashConsingIndex debug range moduleToEngine) a

def isCanonicalizedForHashConsing (a : α) : Bool :=
  (trace a).all fun
    | .shared _ | .recGroup _ => true
    | .module _ => false

end Canonicalize

structure RecGroupEntryInner where
  hashConsingKey : WasmRecGroup
  sharedTypeIndices : List ℕ
  registrations : ℕ
  deriving DecidableEq, Repr

/-- What unregistering one entry did: the entries it released, and the slots it freed with the entry
that owned each. -/
structure Removal where
  entry : ℕ
  released : List ℕ
  freed : List (ℕ × Option ℕ)
  deriving DecidableEq, Repr

structure TypeRegistryInner where
  entries : ℕ → RecGroupEntryInner
  nextEntry : ℕ
  hashConsingMap : List ℕ
  typeToRecGroup : ℕ → Option ℕ
  types : Slab WasmSubType
  dropStack : List ℕ
  removals : List Removal

namespace TypeRegistryInner

def new : TypeRegistryInner :=
  { entries := fun _ => ⟨⟨[]⟩, [], 0⟩
    nextEntry := 0
    hashConsingMap := []
    typeToRecGroup := fun _ => none
    types := Slab.empty
    dropStack := []
    removals := [] }

def key (reg : TypeRegistryInner) (e : ℕ) : WasmRecGroup := (reg.entries e).hashConsingKey

def indices (reg : TypeRegistryInner) (e : ℕ) : List ℕ := (reg.entries e).sharedTypeIndices

def count (reg : TypeRegistryInner) (e : ℕ) : ℕ := (reg.entries e).registrations

def setCount (reg : TypeRegistryInner) (e n : ℕ) : TypeRegistryInner :=
  { reg with entries := Function.update reg.entries e { reg.entries e with registrations := n } }

def incrRefCount (reg : TypeRegistryInner) (e : ℕ) : TypeRegistryInner :=
  reg.setCount e (reg.count e + 1)

/-- Drop one registration; the flag says that it was the last. -/
def decrRefCount (reg : TypeRegistryInner) (e : ℕ) : Except Fault (TypeRegistryInner × Bool) := do
  let newCount ← subOrPanic (reg.count e) 1
  pure (reg.setCount e newCount, reg.count e = 1)

/-! ## Registration -/

/-- `HashSet::get` by key. -/
def hashConsingGet (reg : TypeRegistryInner) (k : WasmRecGroup) : Option ℕ :=
  reg.hashConsingMap.find? fun e => reg.key e = k

/-- Keep the entries alive that the references of a new entry's key lead to. -/
def retainReferences : TypeRegistryInner → List CanonicalizedTypeIndex →
    Except Fault TypeRegistryInner
  | reg, [] => pure reg
  | reg, .shared i :: refs => do
    let e ← unwrap "called `Option::unwrap()` on a `None` value" (reg.typeToRecGroup i)
    retainReferences (reg.incrRefCount e) refs
  | reg, _ :: refs => retainReferences reg refs

def insertOneTypeFromRecGroup (debug : Bool) (π : SlabPolicy) (reg : TypeRegistryInner)
    (ty : WasmSubType) : Except Fault (TypeRegistryInner × ℕ) := do
  debugAssert debug (isCanonicalizedForRuntimeUsage ty)
    "type is not canonicalized for runtime usage"
  let (id, types) := reg.types.alloc π ty
  pure ({ reg with types }, id)

/-- The index of the engine that a member of a new group is taken to get. -/
def predictIndex (map : List ℕ) (moduleStart engineStart idx : ℕ) : Except Fault ℕ :=
  if idx < moduleStart then
    unwrap "index out of bounds" map[idx]?
  else do
    let recGroupOffset ← addU32OrPanic idx moduleStart
    addU32OrPanic engineStart recGroupOffset

def insertTypes (debug : Bool) (π : SlabPolicy) (map : List ℕ) (moduleStart engineStart : ℕ) :
    TypeRegistryInner → List WasmSubType → Except Fault (TypeRegistryInner × List ℕ)
  | reg, [] => pure (reg, [])
  | reg, ty :: tys => do
    let ty ← canonicalizeForRuntimeUsage (predictIndex map moduleStart engineStart) ty
    let (reg, id) ← reg.insertOneTypeFromRecGroup debug π ty
    let (reg, ids) ← insertTypes debug π map moduleStart engineStart reg tys
    pure (reg, id :: ids)

/-- Allocate the entry and put it in the hash-consing map, unless it holds an equal one. -/
def insertEntry (debug : Bool) (reg : TypeRegistryInner) (k : WasmRecGroup) (ids : List ℕ) :
    Except Fault (TypeRegistryInner × ℕ) := do
  let entry := reg.nextEntry
  let isNewEntry := (reg.hashConsingGet k).isNone
  debugAssert debug isNewEntry "assertion failed: is_new_entry"
  pure ({ reg with
    entries := Function.update reg.entries entry ⟨k, ids, 1⟩
    nextEntry := entry + 1
    hashConsingMap := if isNewEntry then entry :: reg.hashConsingMap else reg.hashConsingMap },
    entry)

/-- Update the reverse map for the types of a new entry. -/
def setOwner (debug : Bool) (entry : ℕ) : TypeRegistryInner → List ℕ →
    Except Fault TypeRegistryInner
  | reg, [] => pure reg
  | reg, ty :: tys => do
    debugAssert debug (reg.typeToRecGroup ty).isNone
      "assertion failed: self.type_to_rec_group[ty].is_none()"
    setOwner debug entry
      { reg with typeToRecGroup := Function.update reg.typeToRecGroup ty (some entry) } tys

/-- The index of the engine for a type of an earlier group. -/
def mapIndex (debug : Bool) (map : List ℕ) (range : ℕ × ℕ) (idx : ℕ) : Except Fault ℕ := do
  debugAssert debug (idx < range.1) "assertion failed: idx < range.clone().start"
  unwrap "index out of bounds" map[idx]?

/-- The key a rec group is hash-consed under. -/
def hashConsingKey (debug : Bool) (map : List ℕ) (range : ℕ × ℕ) (types : List WasmSubType) :
    Except Fault WasmRecGroup := do
  let types ← types.mapM (canonicalizeForHashConsing debug range (mapIndex debug map range))
  pure ⟨types⟩

def registerRecGroup (debug : Bool) (π : SlabPolicy) (reg : TypeRegistryInner) (map : List ℕ)
    (range : ℕ × ℕ) (types : List WasmSubType) : Except Fault (TypeRegistryInner × ℕ) := do
  debugAssert debug (range.2 - range.1 = types.length)
    "assertion failed: iter_entity_range(range.clone()).len() == types.len()"
  let key ← hashConsingKey debug map range types
  match reg.hashConsingGet key with
  | some entry => pure (reg.incrRefCount entry, entry)
  | none =>
    let reg ← reg.retainReferences (trace key)
    let engineRecGroupStart ← toU32 reg.types.len
    let (reg, ids) ← reg.insertTypes debug π map range.1 engineRecGroupStart types
    let (reg, entry) ← reg.insertEntry debug key ids
    let reg ← reg.setOwner debug entry ids
    pure (reg, entry)

/-- Append the indices of a group's types to the map of the module. -/
def pushIndices (start : ℕ) (map : List ℕ) : ℕ → List ℕ → Except Fault (List ℕ)
  | 0, _ => pure map
  | _, [] => pure map
  | n + 1, i :: is => do
    assertThat (start = map.length) "assertion failed: module_ty == module_ty2"
    pushIndices (start + 1) (map ++ [i]) n is

/-- `types.get_wasm_type(ty).unwrap()` for the types of a range. -/
def groupTypes (wasmTypes : List WasmSubType) (range : ℕ × ℕ) : Except Fault (List WasmSubType) :=
  (List.range' range.1 (range.2 - range.1)).mapM fun i =>
    unwrap "called `Option::unwrap()` on a `None` value" wasmTypes[i]?

def registerGroups (debug : Bool) (π : SlabPolicy) (wasmTypes : List WasmSubType) :
    TypeRegistryInner → List ℕ → List ℕ → List (ℕ × ℕ) →
      Except Fault (TypeRegistryInner × List ℕ × List ℕ)
  | reg, entries, map, [] => pure (reg, entries, map)
  | reg, entries, map, range :: ranges => do
    let types ← groupTypes wasmTypes range
    let (reg, entry) ← reg.registerRecGroup debug π map range types
    let map ← pushIndices range.1 map (range.2 - range.1) (reg.indices entry)
    registerGroups debug π wasmTypes reg (entries ++ [entry]) map ranges

/-- Register the types of a module: the entries that are held, and the index of the engine for each
type of the module. -/
def registerModuleTypes (debug : Bool) (π : SlabPolicy) (reg : TypeRegistryInner)
    (types : ModuleTypes) : Except Fault (TypeRegistryInner × List ℕ × List ℕ) :=
  registerGroups debug π types.wasmTypes reg [] [] types.recGroups

/-! ## Unregistration -/

/-- Release the entries that the references of a dropped entry's key lead to; those that are no
longer held are dropped next. -/
def releaseReferences : TypeRegistryInner → List CanonicalizedTypeIndex →
    Except Fault (TypeRegistryInner × List ℕ)
  | reg, [] => pure (reg, [])
  | reg, .shared i :: refs => do
    let other ← unwrap "called `Option::unwrap()` on a `None` value" (reg.typeToRecGroup i)
    let (reg, last) ← reg.decrRefCount other
    let reg := if last then { reg with dropStack := other :: reg.dropStack } else reg
    let (reg, released) ← releaseReferences reg refs
    pure (reg, other :: released)
  | reg, _ :: refs => releaseReferences reg refs

/-- Remove the types of a dropped entry from the reverse map and the slab. -/
def removeTypes (debug : Bool) (entry : ℕ) : TypeRegistryInner → List ℕ →
    Except Fault (TypeRegistryInner × List (ℕ × Option ℕ))
  | reg, [] => pure (reg, [])
  | reg, index :: indices => do
    let removedEntry := reg.typeToRecGroup index
    let reg := { reg with typeToRecGroup := Function.update reg.typeToRecGroup index none }
    debugAssert debug removedEntry.isSome "called `Option::unwrap()` on a `None` value"
    debugAssert debug (removedEntry.all fun r => reg.key r = reg.key entry)
      "assertion failed: removed_entry.unwrap() == entry"
    let types ← reg.types.dealloc index
    let (reg, freed) ← removeTypes debug entry { reg with types } indices
    pure (reg, (index, removedEntry) :: freed)

/-- The part of `unregister_entry` that takes an entry out of the registry. -/
def removeEntry (debug : Bool) (reg : TypeRegistryInner) (entry : ℕ) :
    Except Fault TypeRegistryInner := do
  debugAssert debug (isCanonicalizedForHashConsing (reg.key entry))
    "assertion failed: entry.0.hash_consing_key.is_canonicalized_for_hash_consing()"
  let (reg, released) ← reg.releaseReferences (trace (reg.key entry))
  let reg := { reg with
    hashConsingMap := reg.hashConsingMap.eraseP fun e => reg.key e = reg.key entry }
  let (reg, freed) ← reg.removeTypes debug entry (reg.indices entry)
  pure { reg with removals := ⟨entry, released, freed⟩ :: reg.removals }

def unregisterLoop (debug : Bool) : ℕ → TypeRegistryInner → Except Fault TypeRegistryInner
  | fuel, reg =>
    match reg.dropStack, fuel with
    | [], _ => pure reg
    | _ :: _, 0 => .error .fuel
    | entry :: stack, fuel + 1 => do
      let reg := { reg with dropStack := stack }
      -- the entry may have been resurrected since its count was seen to be zero
      if reg.count entry ≠ 0 then
        unregisterLoop debug fuel reg
      else
        unregisterLoop debug fuel (← reg.removeEntry debug entry)

/-- The sum of all counts: no run of the loop takes more rounds than that and the stack together. -/
def totalCount (reg : TypeRegistryInner) : ℕ := ((List.range reg.nextEntry).map reg.count).sum

def unregisterEntry (debug : Bool) (reg : TypeRegistryInner) (entry : ℕ) :
    Except Fault TypeRegistryInner := do
  debugAssert debug reg.dropStack.isEmpty "assertion failed: self.drop_stack.is_empty()"
  let reg := { reg with dropStack := entry :: reg.dropStack }
  unregisterLoop debug (reg.totalCount + reg.dropStack.length) reg

/-- Drop one holder of an entry and unregister the entry with the last. -/
def release (debug : Bool) (reg : TypeRegistryInner) (entry : ℕ) :
    Except Fault TypeRegistryInner := do
  let (reg, last) ← reg.decrRefCount entry
  if last then reg.unregisterEntry debug entry else pure reg

def unregisterTypeCollection (debug : Bool) : TypeRegistryInner → List ℕ →
    Except Fault TypeRegistryInner
  | reg, [] => pure reg
  | reg, entry :: entries => do
    unregisterTypeCollection debug (← reg.release debug entry) entries

/-- What the registry asserts of itself when it is dropped in a debug build. -/
def isEmpty (reg : TypeRegistryInner) : Prop :=
  reg.hashConsingMap = [] ∧ reg.types.ids = [] ∧ (∀ i, reg.typeToRecGroup i = none)
    ∧ reg.dropStack = []

end TypeRegistryInner

/-! ## The handles -/

/-- The types of one module, registered: the entries held and the map of the module's types. -/
structure RuntimeTypeCollection where
  recGroups : List ℕ
  types : List ℕ
  deriving DecidableEq, Repr

/-- A handle to one type of the engine. -/
structure RegisteredType where
  entry : ℕ
  ty : WasmSubType
  index : ℕ
  deriving DecidableEq, Repr

namespace RegisteredType

/-- The handle that `clone` returns; its entry is counted once more. -/
def clone (r : RegisteredType) : RegisteredType := r

/-- `PartialEq::eq`, which compares the pointers to the entries; `sameEngine` is `Engine::same`. -/
def eq (debug sameEngine : Bool) (r other : RegisteredType) : Except Fault Bool := do
  let eq : Bool := r.entry = other.entry
  if debug then
    if eq then
      assertThat sameEngine "assertion failed: Engine::same(&self.engine, &other.engine)"
      assertThat (r.ty = other.ty) "assertion failed: self.ty == other.ty"
    else
      assertThat (r.ty ≠ other.ty || !sameEngine)
        "assertion failed: self.ty != other.ty || !Engine::same(&self.engine, &other.engine)"
  pure eq

/-- What `hash` feeds to the hasher: the pointer to the entry. -/
def hash (r : RegisteredType) : ℕ := r.entry

/-- `Deref::deref`. -/
def deref (r : RegisteredType) : WasmSubType := r.ty

end RegisteredType

namespace TypeRegistryInner

/-- `TypeRegistry::get_type`. -/
def getType (debug : Bool) (reg : TypeRegistryInner) (index : ℕ) :
    Except Fault (TypeRegistryInner × Option RegisteredType) :=
  match reg.types.get index with
  | none => pure (reg, none)
  | some ty => do
    let entry ← unwrap "called `Option::unwrap()` on a `None` value" (reg.typeToRecGroup index)
    let reg := reg.incrRefCount entry
    debugAssert debug (reg.count entry ≠ 0)
      "assertion failed: entry.0.registrations.load(Acquire) != 0"
    pure (reg, some ⟨entry, ty, index⟩)

end TypeRegistryInner

end K23VM
