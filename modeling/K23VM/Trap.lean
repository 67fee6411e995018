import Mathlib.Data.Nat.Notation

/-!
# Traps

The codes that emitted code traps with, and the traps they stand for.
-/

namespace K23VM

namespace Cranelift

/-- The trap codes that code is emitted with; `user` is a code that stands for no trap. -/
inductive TrapCode where
  | internalAssert
  | heapMisaligned
  | tableOutOfBounds
  | indirectCallToNull
  | badSignature
  | unreachable
  | nullReference
  | i31NullReference
  | stackOverflow
  | heapOutOfBounds
  | integerOverflow
  | integerDivisionByZero
  | badConversionToInteger
  | user (code : ℕ)
  deriving DecidableEq, Repr

end Cranelift

inductive Trap where
  | internalAssertionFailed
  | heapMisaligned
  | tableOutOfBounds
  | indirectCallToNull
  | badSignature
  | unreachableCodeReached
  | nullReference
  | nullI31Ref
  | stackOverflow
  | memoryOutOfBounds
  | integerOverflow
  | integerDivisionByZero
  | badConversionToInteger
  deriving DecidableEq, Repr

def Trap.fromTrapCode : Cranelift.TrapCode → Option Trap
  | .stackOverflow => some .stackOverflow
  | .heapOutOfBounds => some .memoryOutOfBounds
  | .integerOverflow => some .integerOverflow
  | .integerDivisionByZero => some .integerDivisionByZero
  | .badConversionToInteger => some .badConversionToInteger
  | .internalAssert => some .internalAssertionFailed
  | .heapMisaligned => some .heapMisaligned
  | .tableOutOfBounds => some .tableOutOfBounds
  | .indirectCallToNull => some .indirectCallToNull
  | .badSignature => some .badSignature
  | .unreachable => some .unreachableCodeReached
  | .nullReference => some .nullReference
  | .i31NullReference => some .nullI31Ref
  | .user _ => none

end K23VM
