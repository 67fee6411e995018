import K23VM.Compile.Link
import K23VM.Lib.BinarySearch

/-!
# Compiled code in memory

The text section of a module after it was mapped, with its table of traps, and the registry of all
regions of code, by which a signal handler finds the region that a program counter lies in and the trap
that is recorded for it.
-/

namespace K23VM

open Compile (FunctionLoc)

structure CodeMemory where
  /-- The address of the mapping. -/
  base : ℕ
  /-- The length of the text section. -/
  len : ℕ
  trapOffsets : List ℕ
  traps : List Trap
  deriving DecidableEq, Repr

namespace CodeMemory

/-- The code `text`, which was mapped at `base`. -/
def new (base : ℕ) (text : List UInt8) (trapOffsets : List ℕ) (traps : List Trap) : CodeMemory :=
  ⟨base, text.length, trapOffsets, traps⟩

/-- The address behind the text section. -/
def textEnd (code : CodeMemory) : ℕ := code.base + code.len

def resolveFunctionLoc (debug : Bool) (code : CodeMemory) (funcLoc : FunctionLoc) :
    Except Fault ℕ := do
  let addr ← addOrPanic code.base funcLoc.start
  debugAssert debug (code.base ≤ addr && saturatingAdd addr funcLoc.length ≤ code.textEnd)
    "assertion failed: text_range.start <= addr && text_range.end >= addr + func_loc.length"
  pure addr

def lookupTrapCode (code : CodeMemory) (textOffset : ℕ) : Except Fault (Option Trap) := do
  let textOffset ← toU32 textOffset
  match binarySearch code.trapOffsets textOffset with
  | none => pure none
  | some index => some <$> unwrap "index out of bounds" code.traps[index]?

end CodeMemory

/-- The regions of code by their last address, with their first one. -/
abbrev GlobalRegistry := SortedMap ℕ (ℕ × CodeMemory)

namespace GlobalRegistry

/-- The region that `pc` lies in, and the offset of `pc` in it. -/
def lookupCode (reg : GlobalRegistry) (pc : ℕ) : Option (CodeMemory × ℕ) := do
  let (_, start, code) ← reg.firstFrom pc
  let textOffset ← if start ≤ pc then some (pc - start) else none
  some (code, textOffset)

def registerCode (reg : GlobalRegistry) (code : CodeMemory) : Except Fault GlobalRegistry := do
  if code.len = 0 then pure reg
  else
    let end_ ← subOrPanic (← addOrPanic code.base code.len) 1
    assertThat (reg.get end_).isNone "assertion failed: prev.is_none()"
    pure (reg.insert end_ (code.base, code))

/-- The trap that is recorded for `pc`, as a signal handler looks it up. -/
def lookupTrap (reg : GlobalRegistry) (pc : ℕ) : Except Fault (Option Trap) :=
  match reg.lookupCode pc with
  | none => pure none
  | some (code, textOffset) => code.lookupTrapCode textOffset

end GlobalRegistry

end K23VM
