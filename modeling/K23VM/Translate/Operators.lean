import K23VM.Translate.Wasmparser

/-!
# Operators

The operators of a function body as the reader decodes them.  Operators that take operands from the
stack and put results on it, and do nothing else to the control flow, are `Operator.plain`; a module
says of each, and of each call and each tag of an exception, which types it takes and gives.
-/

namespace K23VM.Wasmparser

inductive BlockType where
  | empty
  | type (ty : ValType)
  | funcType (index : ℕ)
  deriving DecidableEq, Repr

/-- Which exceptions a clause of a `try_table` catches, and where it branches to; those that end with
`Ref` pass on a reference to the exception. -/
inductive Catch (P : Type) where
  | one (tag : P) (label : ℕ)
  | oneRef (tag : P) (label : ℕ)
  | all (label : ℕ)
  | allRef (label : ℕ)
  deriving DecidableEq, Repr

structure TryTable (P : Type) where
  ty : BlockType
  catches : List (Catch P)
  deriving DecidableEq, Repr

/-- The operators of a function body; `P` names the plain ones, the calls and the tags. -/
inductive Operator (P : Type) where
  | unreachable
  | nop
  | drop
  /-- With its type, `TypedSelect`. -/
  | select (ty : Option ValType)
  | block (blockty : BlockType)
  | loop (blockty : BlockType)
  | if_ (blockty : BlockType)
  | else_
  | end_
  | br (relativeDepth : ℕ)
  | brIf (relativeDepth : ℕ)
  | brTable (targets : List ℕ) (default : ℕ)
  | return_
  | localGet (localIndex : ℕ)
  | localSet (localIndex : ℕ)
  | localTee (localIndex : ℕ)
  | refIsNull
  | refAsNonNull
  | brOnNull (relativeDepth : ℕ)
  | brOnNonNull (relativeDepth : ℕ)
  | brOnCast (relativeDepth : ℕ) (fromRefType toRefType : RefType)
  | brOnCastFail (relativeDepth : ℕ) (fromRefType toRefType : RefType)
  | call (p : P)
  /-- The index into the table is the last operand. -/
  | callIndirect (p : P)
  | returnCall (p : P)
  /-- With a reference to the function in place of the index, `ReturnCallRef`. -/
  | returnCallIndirect (p : P)
  | tryTable (t : TryTable P)
  | throw (tag : P)
  | throwRef
  | plain (p : P)
  deriving DecidableEq, Repr

def Catch.map {P Q : Type} (f : P → Q) : Catch P → Catch Q
  | .one tag label => .one (f tag) label
  | .oneRef tag label => .oneRef (f tag) label
  | .all label => .all label
  | .allRef label => .allRef label

def TryTable.map {P Q : Type} (f : P → Q) (t : TryTable P) : TryTable Q :=
  ⟨t.ty, t.catches.map (Catch.map f)⟩

/-- The same operator under other names for the plain ones, the calls and the tags. -/
def Operator.map {P Q : Type} (f : P → Q) : Operator P → Operator Q
  | .unreachable => .unreachable
  | .nop => .nop
  | .drop => .drop
  | .select ty => .select ty
  | .block blockty => .block blockty
  | .loop blockty => .loop blockty
  | .if_ blockty => .if_ blockty
  | .else_ => .else_
  | .end_ => .end_
  | .br relativeDepth => .br relativeDepth
  | .brIf relativeDepth => .brIf relativeDepth
  | .brTable targets default => .brTable targets default
  | .return_ => .return_
  | .localGet localIndex => .localGet localIndex
  | .localSet localIndex => .localSet localIndex
  | .localTee localIndex => .localTee localIndex
  | .refIsNull => .refIsNull
  | .refAsNonNull => .refAsNonNull
  | .brOnNull relativeDepth => .brOnNull relativeDepth
  | .brOnNonNull relativeDepth => .brOnNonNull relativeDepth
  | .brOnCast relativeDepth fromRefType toRefType => .brOnCast relativeDepth fromRefType toRefType
  | .brOnCastFail relativeDepth fromRefType toRefType => .brOnCastFail relativeDepth fromRefType toRefType
  | .call p => .call (f p)
  | .callIndirect p => .callIndirect (f p)
  | .returnCall p => .returnCall (f p)
  | .returnCallIndirect p => .returnCallIndirect (f p)
  | .tryTable t => .tryTable (t.map f)
  | .throw tag => .throw (f tag)
  | .throwRef => .throwRef
  | .plain p => .plain (f p)

/-- How many control frames the translation of an operator opens. -/
def Operator.opens {P : Type} : Operator P → ℕ
  | .block _ | .loop _ | .if_ _ => 1
  | _ => 0

/-- How many control frames the translation of an operator closes. -/
def Operator.closes {P : Type} : Operator P → ℕ
  | .end_ => 1
  | _ => 0

/-- An operator that opens, closes or exchanges a control frame. -/
def Operator.isStructured {P : Type} : Operator P → Bool
  | .block _ | .loop _ | .if_ _ | .else_ | .end_ | .tryTable _ => true
  | _ => false

/-- An operator of the proposals for casts of references and for exceptions, which are not supported. -/
def Operator.isUnsupported {P : Type} : Operator P → Bool
  | .brOnCast .. | .brOnCastFail .. | .tryTable _ | .throw _ | .throwRef => true
  | _ => false

/-- A call of a function of the module. -/
def Operator.Calls {P : Type} (op : Operator P) (p : P) : Prop := op = .call p ∨ op = .returnCall p

/-- A call of a function in a table or behind a reference. -/
def Operator.CallsIndirect {P : Type} (op : Operator P) (p : P) : Prop :=
  op = .callIndirect p ∨ op = .returnCallIndirect p

def ValType.isReference : ValType → Bool
  | .ref _ => true
  | _ => false

/-- What is left of a reference type where a cast to another one fails. -/
def RefType.difference (a b : RefType) : RefType := ⟨if b.nullable then false else a.nullable, a.heapType⟩

def ValType.EXNREF : ValType := .ref ⟨true, .abstract false .exn⟩

/-- What the validator and the translator are told of the types of a module: the function types by
index, with `none` for a type of another kind, and the subtypes. -/
structure WasmModuleResources where
  types : List (Option FuncType)
  isSubtype : ValType → ValType → Bool

/-- As many types, each a subtype of the one that is expected. -/
def WasmModuleResources.areSubtypes (r : WasmModuleResources) : List ValType → List ValType → Bool
  | [], [] => true
  | ty :: tys, expected :: rest => r.isSubtype ty expected && r.areSubtypes tys rest
  | _, _ => false

/-- The parameters and results of a block. -/
def WasmModuleResources.blockTypes (r : WasmModuleResources) : BlockType → Option FuncType
  | .empty => some ⟨[], []⟩
  | .type ty => some ⟨[], [ty]⟩
  | .funcType index => r.types[index]?.join

end K23VM.Wasmparser
