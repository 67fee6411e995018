import K23VM.Runtime.Instance

/-!
# What an allocator is asked for

Allocating the resources of an instance, with the calls that the allocator answered recorded.  The
tables and memories are pushed onto maps that outlive a failure, and that the cleanup then goes
through.
-/

namespace K23VM

/-- An allocation that succeeded, or a deallocation. -/
inductive AllocatorCall where
  | allocateTable (index : ℕ) (table : Table)
  | allocateMemory (index : ℕ) (memory : InstanceMemory)
  | allocateVmctx (vmctx : ℕ)
  | deallocateTable (index : ℕ) (table : Table)
  | deallocateMemory (index : ℕ) (memory : InstanceMemory)
  | deallocateVmctx (vmctx : ℕ)
  deriving DecidableEq, Repr

abbrev Allocating := Logged AllocatorCall Fault

namespace InstanceAllocator.Recorded

/-- Call a method of the allocator. -/
def answer {β : Type} (x : Fallible Error β) (succeeded : β → AllocatorCall) :
    Allocating (Except Error β) :=
  match x.run with
  | .error fault => ⟨[], .error fault⟩
  | .ok (.error e) => ⟨[], .ok (.error e)⟩
  | .ok (.ok new) => ⟨[succeeded new], .ok (.ok new)⟩

/-- Push the entities that the module defines onto a map, up to the first that cannot be allocated. -/
def pushDefined {δ β : Type} (debug : Bool) (definedIndex : ℕ → Option ℕ)
    (allocate : δ → ℕ → Fallible Error β) (allocated : ℕ → β → AllocatorCall) :
    List β → List (δ × ℕ) → Allocating (List β × Except Error Unit)
  | done, [] => pure (done, .ok ())
  | done, (plan, index) :: plans =>
    match definedIndex index with
    | none => pushDefined debug definedIndex allocate allocated done plans
    | some defIndex => do
      match ← answer (allocate plan defIndex) (allocated defIndex) with
      | .error e => pure (done, .error e)
      | .ok new => do
        debugAssert debug (defIndex = done.length) "assertion `left == right` failed"
        pushDefined debug definedIndex allocate allocated (done ++ [new]) plans

variable (debug : Bool) (alloc : InstanceAllocator)

def allocateTables (module : TranslatedModule) : Allocating (List Table × Except Error Unit) :=
  pushDefined debug module.definedTableIndex (alloc.allocateTable module) .allocateTable []
    module.tables.zipIdx

def allocateMemories (module : TranslatedModule) :
    Allocating (List InstanceMemory × Except Error Unit) :=
  pushDefined debug module.definedMemoryIndex (alloc.allocateMemory module) .allocateMemory []
    module.memories.zipIdx

def deallocateMemories (memories : List InstanceMemory) : Allocating Unit :=
  .recordAll (fun (memory, memoryIndex) => pure (.deallocateMemory memoryIndex memory))
    memories.zipIdx

def deallocateTables (tables : List Table) : Allocating Unit :=
  .recordAll (fun (table, tableIndex) => pure (.deallocateTable tableIndex table)) tables.zipIdx

def allocateVmctx (module : Module) : Allocating (Except Error ℕ) :=
  answer (alloc.allocateVmctx module.translated module.offsets) .allocateVmctx

def allocateModule (module : Module) :
    Allocating (Except Error (ℕ × List Table × List InstanceMemory)) := do
  let _ ← module.translated.numDefinedTables
  let _ ← module.translated.numDefinedMemories
  let (tables, res) ← allocateTables debug alloc module.translated
  let (memories, res) ←
    match res with
    | .error e => pure ([], .error e)
    | .ok () => allocateMemories debug alloc module.translated
  let res ←
    match res with
    | .error e => pure (.error e)
    | .ok () => allocateVmctx alloc module
  match res with
  | .ok vmctx => pure (.ok (vmctx, tables, memories))
  | .error e => do
    deallocateMemories memories
    deallocateTables tables
    pure (.error e)

end InstanceAllocator.Recorded

/-! ## Reading the record -/

namespace AllocatorCall

def allocatedTable? : AllocatorCall → Option (ℕ × Table)
  | .allocateTable index table => some (index, table)
  | _ => none

def allocatedMemory? : AllocatorCall → Option (ℕ × InstanceMemory)
  | .allocateMemory index memory => some (index, memory)
  | _ => none

def deallocatedTable? : AllocatorCall → Option (ℕ × Table)
  | .deallocateTable index table => some (index, table)
  | _ => none

def deallocatedMemory? : AllocatorCall → Option (ℕ × InstanceMemory)
  | .deallocateMemory index memory => some (index, memory)
  | _ => none

def IsDeallocation : AllocatorCall → Prop
  | .deallocateTable _ _ | .deallocateMemory _ _ | .deallocateVmctx _ => True
  | _ => False

end AllocatorCall

end K23VM
