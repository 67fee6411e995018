import Mathlib.Data.List.Range
import K23VM.Runtime.Mmap
import K23VM.Translate.Module

/-!
# Vectors in mapped memory

A vector that lies at the start of a reserved mapping and makes it accessible as it grows.  It counts
its elements where the mapping counts bytes.
-/

namespace K23VM

def Mmap.newEmpty : Mmap := ⟨0, []⟩

structure MmapVec (T : Type) where
  mmap : Mmap
  len : ℕ
  /-- What was written to the places of the elements, which need not be within the mapping. -/
  cells : ℕ → Option T

namespace MmapVec

variable {T : Type}

def new : MmapVec T := ⟨.newEmpty, 0, fun _ => none⟩

def withReserved (host : Host) (capacity : ℕ) : Fallible Error (MmapVec T) := do
  let mmap ← Mmap.withReserve host capacity
  pure ⟨mmap, 0, fun _ => none⟩

def slice (v : MmapVec T) : List (Option T) := (List.range v.len).map v.cells

def accessible (debug : Bool) (host : Host) (v : MmapVec T) : Except Fault ℕ := do
  let accessible ← host.roundUsizeUpToHostPages v.len
  debugAssert debug (accessible ≤ v.mmap.len) "assertion failed: accessible <= self.mmap.len()"
  pure accessible

/-- Where the protection cannot be changed, the vector is left with its new length. -/
def tryGrow (debug : Bool) (host : Host) (v : MmapVec T) (additional : ℕ) :
    Except Fault (Except Error ℕ × MmapVec T) := do
  let oldSize := v.len
  let oldAccessible ← v.accessible debug host
  let len ← addOrPanic v.len additional
  if len < v.mmap.len then
    let v := { v with len }
    let accessible ← v.accessible debug host
    if oldAccessible < accessible then
      match ← (v.mmap.makeAccessible host oldAccessible (accessible - oldAccessible)).run with
      | .ok mmap => pure (.ok oldSize, { v with mmap })
      | .error e => pure (.error e, v)
    else
      pure (.ok oldSize, v)
  else
    panicking "oom"

/-- Grow the vector and write the new elements; where that fails, the guard restores the length. -/
def extend (debug : Bool) (host : Host) (v : MmapVec T) (count : ℕ) (elem : ℕ → Option T) :
    Except Fault (Except Error Unit × MmapVec T) := do
  match ← v.tryGrow debug host count with
  | (.error e, grown) => pure (.error e, { grown with len := v.len })
  | (.ok oldLen, grown) =>
    pure (.ok (), { grown with
      cells := fun i => if oldLen ≤ i ∧ i < oldLen + count then elem (i - oldLen) else grown.cells i })

def tryExtendFromSlice (debug : Bool) (host : Host) (v : MmapVec T) (other : List T) :
    Except Fault (Except Error Unit × MmapVec T) :=
  v.extend debug host other.length (other[·]?)

def tryExtendWith (debug : Bool) (host : Host) (v : MmapVec T) (count : ℕ) (elem : T) :
    Except Fault (Except Error Unit × MmapVec T) :=
  v.extend debug host count fun _ => some elem

def fromSlice (debug : Bool) (host : Host) (slice : List T) : Fallible Error (MmapVec T) := do
  if slice.isEmpty then
    pure new
  else
    let capacity ← host.roundUsizeUpToHostPages slice.length
    let this ← withReserved host capacity
    let (r, this) ← (this.tryExtendFromSlice debug host slice : Except Fault _)
    match r with
    | .ok () => pure this
    | .error e => throw e

end MmapVec

/-! ## Tables -/

def TABLE_MAX : ℕ := 2 ^ 10

namespace Runtime

/-- A table in its own mapping, of pointers that may be null. -/
structure Table where
  elements : MmapVec (Option ℕ)
  maximum : Option ℕ

def Table.tryNew (debug : Bool) (host : Host) (desc : TableDesc) (actualMaximum : Option ℕ) :
    Fallible Error Table := do
  let reserveSize := min TABLE_MAX (actualMaximum.getD U64_MAX)
  if reserveSize = 0 then
    pure ⟨.new, actualMaximum⟩
  else
    let capacity ← host.roundUsizeUpToHostPages reserveSize
    let elements ← MmapVec.withReserved host capacity
    let (r, elements) ← (elements.tryExtendWith debug host desc.minimum none : Except Fault _)
    match r with
    | .ok () => pure ⟨elements, actualMaximum⟩
    | .error e => throw e

end Runtime

end K23VM
