import K23VM.Exports

/-!
# The linker

A linker finds the definitions for the imports of a module by name, in a store that owns what the
instances export, and instantiates the module with them.
-/

namespace K23VM

/-! ## Linkers -/

structure ImportKey where
  name : ℕ
  module : ℕ
  deriving DecidableEq, Repr

/-- The names are interned: `strings` has the string of each index, and `string2idx` the index of each
string. -/
structure Linker where
  string2idx : List (String × ℕ)
  strings : List String
  map : List (ImportKey × Extern)
  deriving DecidableEq, Repr

/-- The order in which a hash map is gone through. -/
structure HashOrder where
  order : List (ImportKey × Extern) → List (ImportKey × Extern)
  perm : ∀ entries, (order entries).Perm entries

namespace Linker

def new : Linker := ⟨[], [], []⟩

def get (linker : Linker) (module name : String) : Option Extern := do
  let module ← linker.string2idx.lookup module
  let name ← linker.string2idx.lookup name
  linker.map.lookup { module, name }

def internStr (linker : Linker) (string : String) : ℕ × Linker :=
  match linker.string2idx.lookup string with
  | some idx => (idx, linker)
  | none =>
    let idx := linker.strings.length
    (idx, { linker with
      strings := linker.strings ++ [string]
      string2idx := (string, idx) :: linker.string2idx })

def importKey (linker : Linker) (module : String) (name : Option String) : ImportKey × Linker :=
  let (module, linker) := linker.internStr module
  match name with
  | none => (⟨2 ^ 64 - 1, module⟩, linker)
  | some name => let (name, linker) := linker.internStr name; (⟨name, module⟩, linker)

def insert (linker : Linker) (key : ImportKey) (item : Extern) :
    Except Fault (Except Error Unit × Linker) :=
  match linker.map.lookup key with
  | some _ => do
    let module ← unwrap "index out of bounds" linker.strings[key.module]?
    let field ← unwrap "index out of bounds" linker.strings[key.name]?
    pure (.error (.alreadyDefined module field), linker)
  | none => pure (.ok (), { linker with map := (key, item) :: linker.map })

/-- Insert definitions one by one, up to the first that is refused. -/
def insertItems : Linker → List (ImportKey × Extern) → Except Fault (Except Error Unit × Linker)
  | linker, [] => pure (.ok (), linker)
  | linker, (key, item) :: items => do
    match ← linker.insert key item with
    | (.error e, linker) => pure (.error e, linker)
    | (.ok (), linker) => insertItems linker items

/-- Alias the exports of `module` under the name `as_module`, in the order of the hash map. -/
def aliasModule (order : HashOrder) (linker : Linker) (module asModule : String) :
    Except Fault (Except Error Unit × Linker) :=
  let (module, linker) := linker.internStr module
  let (asModule, linker) := linker.internStr asModule
  let items := ((order.order linker.map).filter fun p => p.1.module = module).map fun p =>
    (⟨p.1.name, asModule⟩, p.2)
  linker.insertItems items

/-- The keys of a module's exports. -/
def importKeys (moduleName : String) :
    Linker → List (String × Extern) → List (ImportKey × Extern) × Linker
  | linker, [] => ([], linker)
  | linker, (name, value) :: exports =>
    let (key, linker) := linker.importKey moduleName (some name)
    let (items, linker) := importKeys moduleName linker exports
    ((key, value) :: items, linker)

/-- Define the exports of an instance under the name `module_name`. -/
def defineInstance (linker : Linker) (store : Store) (moduleName : String) (instance_ : ℕ) :
    Except Fault ((Except Error Unit × Linker) × Store) := do
  let (exports, store) ← store.exports instance_
  let (items, linker) := importKeys moduleName linker exports
  pure (← linker.insertItems items, store)

/-- Resolve one import, and push its definition. -/
def resolveImport (linker : Linker) (store : Store) (imports : Imports) (import_ : Import) :
    Fallible Error Imports := do
  let def_ ← Fallible.okOr (.missingImport import_.module import_.name import_.ty)
    (linker.get import_.module import_.name)
  match def_, import_.ty with
  | .func func, .function _ => do
    pure { imports with functions := imports.functions ++ [← store.asVmfunctionImport func] }
  | .table table, .table _ => do
    pure { imports with tables := imports.tables ++ [← store.asVmtableImport table] }
  | .memory memory, .memory _ => do
    pure { imports with memories := imports.memories ++ [← store.asVmmemoryImport memory] }
  | .global global, .global _ => do
    pure { imports with globals := imports.globals ++ [← store.asVmglobalImport global] }
  | _, _ => (panicking "mismatched import type" : Except Fault Imports)

def resolveImports (linker : Linker) (store : Store) (module : Module) : Fallible Error Imports :=
  module.translated.imports.foldlM (linker.resolveImport store) {}

/-- Instantiate a module: the handle of the new instance and the store with it. -/
def instantiate (debug : Bool) (builtinFunctions : ℕ) (linker : Linker) (store : Store)
    (alloc : InstanceAllocator) (ev : ConstExprEvaluator) (module : Module) :
    Fallible Error ((ℕ × Store) × ConstExprEvaluator) := do
  let imports ← linker.resolveImports store module
  let (instance_, ev) ← Instance.newUnchecked debug builtinFunctions alloc ev module imports
  pure (store.pushInstance instance_, ev)

end Linker

end K23VM
