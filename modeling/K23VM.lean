import K23VM.Cranelift.Env
import K23VM.Runtime.Memory
import K23VM.Proofs.BoundsCheck
import K23VM.Proofs.MemoryDesc
import K23VM.Translate.DebugInfo
import K23VM.Proofs.RegisteredType
import K23VM.Runtime.InstanceAllocator
import K23VM.Proofs.InstanceAllocator
import K23VM.Proofs.Reservation
import K23VM.Lib.MapM
import K23VM.Proofs.References
import K23VM.Proofs.TypeTrace
import K23VM.Lib.Slab
import K23VM.TypeRegistry
import K23VM.Proofs.RegistryInv
import K23VM.Proofs.RegistryUnregister
import K23VM.Proofs.RegistryRegister
import K23VM.RegistryRuns
import K23VM.Proofs.RegistryRuns
import K23VM.Proofs.RegistryCounts
import K23VM.Proofs.HashConsing
import K23VM.Proofs.StoredTypes
import K23VM.RegistryThreads
import K23VM.Proofs.RegistryThreads
import K23VM.Proofs.TypeConvert
import K23VM.Proofs.InternedTypes
import K23VM.Cranelift.CallIndirect
import K23VM.Proofs.CallIndirect
import K23VM.Lib.SortedMap
import K23VM.Compile.CompiledFunction
import K23VM.Compile.Link
import K23VM.Proofs.Compile
import K23VM.Proofs.TextRun
import K23VM.Proofs.Link
import K23VM.Cranelift.Builder
import K23VM.Translate.FuncValidator
import K23VM.Cranelift.FuncEnv
import K23VM.Cranelift.State
import K23VM.Errors
import K23VM.Translate.ModuleTranslator
import K23VM.Proofs.TranslatedModule
import K23VM.Proofs.SharedValidator
import K23VM.Proofs.VMOffsets
import K23VM.Proofs.Escape
import K23VM.Runtime.CodeMemory
import K23VM.Proofs.TrapSites
import K23VM.Runtime.Instance
import K23VM.Lib.WriteOnce
import K23VM.Lib.Interning
import K23VM.Store
import K23VM.Exports
import K23VM.Linker
import K23VM.Proofs.VMContext
import K23VM.Proofs.Imports
import K23VM.Proofs.Instantiate
import K23VM.Proofs.Initialize
import K23VM.Proofs.LinkChecks
import K23VM.Func
import K23VM.Proofs.StackLimit
import K23VM.Cranelift.CodeTranslator
import K23VM.Translate.PlainOperators
import K23VM.Cranelift.PlainOperators
import K23VM.Cranelift.ModuleEnvironment
import K23VM.Proofs.ConstEval
import K23VM.Proofs.DataSegments
import K23VM.Lib.Rounding
import K23VM.Runtime.MmapVec
import K23VM.Proofs.MmapVec
import K23VM.Lib.Chain
import K23VM.TrapHandling
import K23VM.Proofs.TrapHandling
import K23VM.Proofs.RecGroups
import K23VM.Proofs.TypeSection
import K23VM.Cranelift.FuncTranslator
import K23VM.Cranelift.Compiler
import K23VM.Proofs.ControlStack
import K23VM.Proofs.FuncValidator
import K23VM.Proofs.Compiler
import K23VM.Proofs.SameButName
import K23VM.Proofs.CustomSections
import K23VM.Lib.Yields
import K23VM.Proofs.TypedCode
import K23VM.Proofs.OperandStack
import K23VM.Proofs.Lockstep
import K23VM.Proofs.LockstepBlocks
import K23VM.Proofs.TypedBody
import K23VM.Proofs.Linker
import K23VM.Handles
import K23VM.Proofs.Handles
import K23VM.Proofs.DebugInfo
import K23VM.Lib.ByteMemory
import K23VM.Values
import K23VM.Cranelift.ArrayToWasm
import K23VM.CallUnchecked
import K23VM.HostCalls
import K23VM.Proofs.CallUnchecked
import K23VM.Proofs.HostCalls
import K23VM.Backtrace
import K23VM.Proofs.Backtrace
import K23VM.Session
import K23VM.Proofs.ModuleExports
import K23VM.Lib.Slots
import K23VM.Proofs.Exports
import K23VM.Proofs.ExportSlots
import K23VM.Proofs.Session
