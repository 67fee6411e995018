import K23VM.Runtime.VMOffsets
import K23VM.TypeRegistry
import K23VM.Trap

/-!
# The signature check of an indirect call

`call_indirect` through a table of plain `funcref`s compares two type ids at run time: the one of the
`VMFuncRef` it found in the table, and the expected one, which it loads from the array of type ids
that the vmctx points to.  Through a table of typed references the types are compared when the code
is emitted.
-/

namespace K23VM

namespace Cranelift

/-- The instructions of the check, each with the value it defines last. -/
inductive CheckInst where
  | vmctx (dst : ℕ)
  | load (size addr offset : ℕ) (code : Option TrapCode) (dst : ℕ)
  | icmpEqual (x y dst : ℕ)
  | trapz (x : ℕ) (code : TrapCode)
  | trap (code : TrapCode)
  deriving DecidableEq, Repr

/-- What is known of the callee's type after the check. -/
inductive CheckIndirectCallTypeSignature where
  | runtime
  | staticMatch (mayBeNull : Bool)
  | staticTrap
  deriving DecidableEq, Repr

/-- The byte offset of a type's id in the array. -/
def typeIdOffset (off : StaticVMOffsets) (tyIndex : ℕ) : Except Fault ℕ := do
  let bytes ← unwrap "called `Option::unwrap()` on a `None` value"
    (if tyIndex * off.sizeOfVmsharedTypeIndex < 2 ^ 32
      then some (tyIndex * off.sizeOfVmsharedTypeIndex) else none)
  if bytes < 2 ^ 31 then pure bytes
  else panicking "out of range integral type conversion attempted"

/-- Emit the check that the function reference `funcrefPtr`, from a table with the given element
type, has the declared type `tyIndex`; `next` is the first value that is not in use. -/
def checkIndirectCallTypeSignature (off : StaticVMOffsets) (elementType : WasmRefType)
    (types : List ℕ) (tyIndex funcrefPtr next : ℕ) :
    Except Fault (List CheckInst × CheckIndirectCallTypeSignature) := do
  assertThat (!elementType.heapType.shared) "shared heap types not supported"
  let size := off.sizeOfVmsharedTypeIndex
  let loadActual := CheckInst.load size funcrefPtr off.vmFuncRefTypeIndex
    (some .indirectCallToNull)
  match elementType.heapType.ty with
  | .func =>
    let offset ← typeIdOffset off tyIndex
    pure ([.vmctx next, .load off.ptrSize next off.vmctxTypeIds none (next + 1),
      .load size (next + 1) offset none (next + 2), loadActual (next + 3),
      .icmpEqual (next + 2) (next + 3) (next + 4), .trapz (next + 4) .badSignature], .runtime)
  | .concreteFunc (.module expectedType) =>
    let actualTy ← unwrap "index out of bounds" types[tyIndex]?
    if actualTy = expectedType then
      pure ([], .staticMatch elementType.nullable)
    else
      pure ((if elementType.nullable then [loadActual next] else []) ++ [.trap .badSignature],
        .staticTrap)
  | .noFunc =>
    assertThat elementType.nullable "assertion failed: table.element_type.nullable"
    pure ([.trap .indirectCallToNull], .staticTrap)
  | .concreteFunc _ =>
    panicking "encountered shared or rec group indices during compilation. this is a bug"
  | _ => panicking "internal error: entered unreachable code"

/-! ## Running the check -/

/-- The words in memory: at an address, of a size in bytes, where one is mapped. -/
abbrev WordMemory := ℕ → ℕ → Option ℕ

/-- Why the check does not pass: a trap, or a load outside the memory that is not expected to
trap. -/
inductive CheckStop where
  | trap (code : TrapCode)
  | wild (addr : ℕ)
  deriving DecidableEq, Repr

def CheckInst.run (mem : WordMemory) (vmctx : ℕ) (ρ : ℕ → ℕ) : CheckInst → Except CheckStop (ℕ → ℕ)
  | .vmctx dst => .ok (Function.update ρ dst vmctx)
  | .load size addr offset code dst =>
    match mem (ρ addr + offset) size, code with
    | some w, _ => .ok (Function.update ρ dst w)
    | none, some code => .error (.trap code)
    | none, none => .error (.wild (ρ addr + offset))
  | .icmpEqual x y dst => .ok (Function.update ρ dst (if ρ x = ρ y then 1 else 0))
  | .trapz x code => if ρ x = 0 then .error (.trap code) else .ok ρ
  | .trap code => .error (.trap code)

def runCheck (mem : WordMemory) (vmctx : ℕ) (ρ : ℕ → ℕ) (code : List CheckInst) :
    Except CheckStop (ℕ → ℕ) :=
  code.foldlM (CheckInst.run mem vmctx) ρ

end Cranelift

/-! ## What an instance writes -/

/-- The type index that `initialize_vmfunc_refs` writes for a function of the given signature. -/
def vmFuncRefTypeIndex (types : List ℕ) (collection : RuntimeTypeCollection) (signature : ℕ) :
    Except Fault ℕ := do
  let index ← unwrap "index out of bounds" types[signature]?
  unwrap "called `Option::unwrap()` on a `None` value" collection.types[index]?

/-- The memory as `initialize_vmctx` left it: the vmctx points to the array of type ids, which holds
the values of the type map. -/
structure VMContextInitialized (off : StaticVMOffsets) (mem : Cranelift.WordMemory) (vmctx typeIds : ℕ)
    (collection : RuntimeTypeCollection) : Prop where
  ptr : mem (vmctx + off.vmctxTypeIds) off.ptrSize = some typeIds
  ids : ∀ (i id : ℕ), collection.types[i]? = some id →
    mem (typeIds + i * off.sizeOfVmsharedTypeIndex) off.sizeOfVmsharedTypeIndex = some id

end K23VM
