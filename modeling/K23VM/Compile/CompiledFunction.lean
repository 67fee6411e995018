import Mathlib.Order.Lattice
import Mathlib.Data.Prod.Lex
import K23VM.Lib.Fault
import K23VM.Trap

/-!
# Compiled functions

What the code generator hands back for one function: its machine code with the relocations and traps
in it, and the names its relocations refer to.  A compilation output is filed under a key, which
packs the kind of output and the index of the function it is for.
-/

namespace K23VM.Compile

/-! ## Keys -/

structure CompileKey where
  /-- Bit-packed as `kind : 3` and `module : 29`. -/
  namespace_ : ℕ
  index : ℕ
  deriving DecidableEq, Repr

namespace CompileKey

def KIND_BITS : ℕ := 3

def KIND_OFFSET : ℕ := 32 - KIND_BITS

def KIND_MASK : ℕ := (1 <<< KIND_BITS - 1) <<< KIND_OFFSET

def newKind (kind : ℕ) : ℕ := kind <<< KIND_OFFSET

def kind (key : CompileKey) : ℕ := key.namespace_ &&& KIND_MASK

def WASM_FUNCTION_KIND : ℕ := newKind 0

def ARRAY_TO_WASM_TRAMPOLINE_KIND : ℕ := newKind 2

def WASM_TO_ARRAY_TRAMPOLINE_KIND : ℕ := newKind 3

def WASM_TO_BUILTIN_TRAMPOLINE_KIND : ℕ := newKind 4

def wasmFunction (index : ℕ) : CompileKey := ⟨WASM_FUNCTION_KIND ||| 0, index⟩

def arrayToWasmTrampoline (index : ℕ) : CompileKey := ⟨ARRAY_TO_WASM_TRAMPOLINE_KIND ||| 0, index⟩

def wasmToBuiltinTrampoline (index : ℕ) : CompileKey := ⟨WASM_TO_BUILTIN_TRAMPOLINE_KIND, index⟩

/-- Keys are ordered by kind and module, then by index. -/
instance : LinearOrder CompileKey :=
  LinearOrder.lift' (fun k => toLex (k.namespace_, k.index)) fun a b h => by
    cases a
    cases b
    simpa using h

end CompileKey

/-! ## Functions -/

/-- The name of a function that code refers to. -/
structure UserExternalName where
  namespace_ : ℕ
  index : ℕ
  deriving DecidableEq, Repr

inductive FinalizedRelocTarget where
  | user (ref : ℕ)
  | libCall (libcall : ℕ)
  | other
  deriving DecidableEq, Repr

structure FinalizedMachReloc where
  offset : ℕ
  kind : ℕ
  target : FinalizedRelocTarget
  addend : ℤ
  deriving DecidableEq, Repr

structure MachTrap where
  offset : ℕ
  code : Cranelift.TrapCode
  deriving DecidableEq, Repr

structure CompiledFunction where
  buffer : List UInt8
  relocs : List FinalizedMachReloc
  machTraps : List MachTrap
  nameMap : List UserExternalName
  alignment : ℕ
  startSrcloc : ℕ
  deriving DecidableEq, Repr

/-- The namespace of wasm functions, by function index. -/
def NS_WASM_FUNC : ℕ := 0

/-- The namespace of builtin trampolines, by builtin. -/
def NS_BUILTIN : ℕ := 1

inductive RelocationTarget where
  | wasm (index : ℕ)
  | builtin (index : ℕ)
  deriving DecidableEq, Repr

structure Relocation where
  kind : ℕ
  target : RelocationTarget
  addend : ℤ
  offset : ℕ
  deriving DecidableEq, Repr

structure TrapInfo where
  offset : ℕ
  trap : Trap
  deriving DecidableEq, Repr

def Relocation.fromMachReloc (nameMap : List UserExternalName) (reloc : FinalizedMachReloc) :
    Except Fault Relocation := do
  let target ←
    match reloc.target with
    | .user ref => do
      let name ← unwrap "index out of bounds" nameMap[ref]?
      if name.namespace_ = NS_WASM_FUNC then pure (.wasm name.index)
      else if name.namespace_ = NS_BUILTIN then pure (.builtin name.index)
      else panicking "unknown namespace"
    | .libCall _ => panicking "not yet implemented: libcalls"
    | .other => panicking "unsupported relocation target"
  pure ⟨reloc.kind, target, reloc.addend, reloc.offset⟩

namespace CompiledFunction

def relocations (f : CompiledFunction) : Except Fault (List Relocation) :=
  f.relocs.mapM (Relocation.fromMachReloc f.nameMap)

def traps (f : CompiledFunction) : Except Fault (List TrapInfo) :=
  f.machTraps.mapM fun trap => do
    pure ⟨trap.offset, ← unwrap "unexpected trap code" (Trap.fromTrapCode trap.code)⟩

end CompiledFunction

end K23VM.Compile
