import K23VM.Translate.TypeConvert

/-!
# Interning the types of a module

The rec groups of the type section are interned one after the other; a group that was seen before is
not interned again, and its declaration stands for the indices it got then.  `module.types` says for
each declared type which interned type it is.
-/

namespace K23VM

open Wasmparser

/-- The interned types of a module and the ranges of its rec groups. -/
structure ModuleTypes where
  recGroups : List (ℕ × ℕ)
  wasmTypes : List WasmSubType
  deriving DecidableEq, Repr

structure RecGroupInProgress where
  recGroupIndex : ℕ
  start : ℕ
  stop : ℕ
  deriving DecidableEq, Repr

structure ModuleTypesBuilder where
  validatorId : ℕ
  types : ModuleTypes
  seenTypes : List (ℕ × ℕ)
  seenRecGroups : List (ℕ × ℕ)
  recGroupInProgress : Option RecGroupInProgress
  deriving DecidableEq, Repr

namespace ModuleTypesBuilder

def new (v : ValidatorTypes) : ModuleTypesBuilder := ⟨v.id, ⟨[], []⟩, [], [], none⟩

/-- Reserve interned indices for the members of a group. -/
def reserveTypes (debug : Bool) (next : ℕ) : List (ℕ × ℕ) → List ℕ → Except Fault (List (ℕ × ℕ))
  | seen, [] => pure seen
  | seen, id :: elems => do
    debugAssert debug (seen.lookup id).isNone "should not have already inserted"
    reserveTypes debug (next + 1) ((id, next) :: seen) elems

def startRecGroup (debug : Bool) (b : ModuleTypesBuilder) (v : ValidatorTypes) (elems : List ℕ) :
    Except Fault ModuleTypesBuilder := do
  assertThat b.recGroupInProgress.isNone "assertion failed: self.rec_group_in_progress.is_none()"
  assertThat (v.id = b.validatorId) "assertion failed: validator_types.id() == self.validator_id"
  let next := b.types.wasmTypes.length
  let seenTypes ← reserveTypes debug next b.seenTypes elems
  pure { b with
    seenTypes
    recGroupInProgress := some ⟨b.types.recGroups.length, next, next + elems.length⟩ }

def wasmSubTypeInRecGroup (debug : Bool) (b : ModuleTypesBuilder) (id : ℕ) (ty : WasmSubType) :
    Except Fault ModuleTypesBuilder := do
  assertThat b.recGroupInProgress.isSome "must be defining a rec group to define new types"
  debugAssert debug (b.seenTypes.lookup id = some b.types.wasmTypes.length)
    "should have reserved the right module-interned index for this wasmparser type already"
  pure { b with types := { b.types with wasmTypes := b.types.wasmTypes ++ [ty] } }

def endRecGroup (debug : Bool) (b : ModuleTypesBuilder) (recGroupId : ℕ) :
    Except Fault (ModuleTypesBuilder × ℕ) := do
  let group ← unwrap "should be defining a rec group" b.recGroupInProgress
  debugAssert debug (group.start < b.types.wasmTypes.length)
    "assertion failed: start.index() < self.types.len_wasm_types()"
  debugAssert debug (group.stop = b.types.wasmTypes.length)
    "should have defined the number of types declared in `start_rec_group`"
  debugAssert debug (b.types.recGroups.length = group.recGroupIndex)
    "assertion failed: idx == rec_group_index"
  pure ({ b with
    types := { b.types with recGroups := b.types.recGroups ++ [(group.start, group.stop)] }
    seenRecGroups := (recGroupId, group.recGroupIndex) :: b.seenRecGroups
    recGroupInProgress := none }, group.recGroupIndex)

/-- Convert and define the members of a group. -/
def defineTypes (debug : Bool) (moduleTypes : List ℕ) (v : ValidatorTypes) :
    ModuleTypesBuilder → List ℕ → Except Fault ModuleTypesBuilder
  | b, [] => pure b
  | b, id :: elems => do
    let ty ← WasmparserTypeConverter.convertSubType
      ⟨b.seenTypes, b.types.wasmTypes, moduleTypes⟩ (v.subType id)
    let b ← b.wasmSubTypeInRecGroup debug id ty
    defineTypes debug moduleTypes v b elems

def defineNewRecGroup (debug : Bool) (b : ModuleTypesBuilder) (moduleTypes : List ℕ)
    (v : ValidatorTypes) (recGroupId : ℕ) : Except Fault (ModuleTypesBuilder × ℕ) := do
  let b ← b.startRecGroup debug v (v.recGroupElements recGroupId)
  let b ← defineTypes debug moduleTypes v b (v.recGroupElements recGroupId)
  b.endRecGroup debug recGroupId

def internRecGroup (debug : Bool) (b : ModuleTypesBuilder) (moduleTypes : List ℕ)
    (v : ValidatorTypes) (recGroupId : ℕ) : Except Fault (ModuleTypesBuilder × ℕ) := do
  assertThat (v.id = b.validatorId) "assertion failed: validator_types.id() == self.validator_id"
  match b.seenRecGroups.lookup recGroupId with
  | some interned => pure (b, interned)
  | none => b.defineNewRecGroup debug moduleTypes v recGroupId

end ModuleTypesBuilder

/-- The interned indices of a rec group. -/
def ModuleTypes.recGroupElements (types : ModuleTypes) (recGroup : ℕ) : Except Fault (List ℕ) := do
  let range ← unwrap "index out of bounds" types.recGroups[recGroup]?
  pure (List.range' range.1 (range.2 - range.1))

/-- Intern `count` rec groups, the first of which declares the type `typeIndex`; `module.types` is
appended to. -/
def translateRecGroups (debug : Bool) (v : ValidatorTypes) : ℕ → ModuleTypesBuilder → List ℕ → ℕ →
    Except Fault (ModuleTypesBuilder × List ℕ)
  | 0, b, moduleTypes, _ => pure (b, moduleTypes)
  | count + 1, b, moduleTypes, typeIndex => do
    let coreTypeId ← unwrap "index out of bounds" v.coreTypes[typeIndex]?
    let recGroupId := v.recGroupIdOf coreTypeId
    debugAssert debug ((v.recGroupElements recGroupId).idxOf? coreTypeId = some 0)
      "assertion failed: rec_group_elements(rec_group_id).position(..) == Some(0)"
    let (b, interned) ← b.internRecGroup debug moduleTypes v recGroupId
    let elems ← b.types.recGroupElements interned
    translateRecGroups debug v count b (moduleTypes ++ elems) (typeIndex + elems.length)

def translateTypeSection (debug : Bool) (v : ValidatorTypes) (count : ℕ) :
    Except Fault (ModuleTypesBuilder × List ℕ) :=
  translateRecGroups debug v count (.new v) [] 0

end K23VM
