import K23VM.Translate.Module
import K23VM.Trap

/-!
# Errors

The errors of the virtual machine that the modelled functions return.  The texts of the parser's own
errors are not modelled.
-/

namespace K23VM

namespace Wasmparser

structure BinaryReaderError where
  deriving DecidableEq, Repr

end Wasmparser

inductive Error where
  | invalidWebAssembly (error : Wasmparser.BinaryReaderError)
  | missingImport (module field : String) (type_ : EntityType)
  | alreadyDefined (module field : String)
  | unsupported (feature : String)
  | cranelift (funcName message : String)
  | trap (trap : Trap) (message : String)
  | mmapFailed
  deriving DecidableEq, Repr

end K23VM
