import K23VM.Errors
import K23VM.Translate.Operators

/-!
# Validating a function body

The validation algorithm for function bodies: a stack of operand types, where `none` is an unknown
type in code that is not reached, and a stack of control frames.  An operand below the height of the
innermost frame cannot be popped.
-/

namespace K23VM.Wasmparser

abbrev Validate (α : Type) := Except BinaryReaderError α

def reject {α : Type} : Validate α := .error {}

inductive FrameKind where
  | block | loop | if_ | else_ | tryTable
  deriving DecidableEq, Repr

structure Frame where
  kind : FrameKind
  ty : FuncType
  height : ℕ
  unreachable : Bool
  initHeight : ℕ
  deriving DecidableEq, Repr

/-- The types that a branch to a frame takes. -/
def Frame.labelTypes (f : Frame) : List ValType :=
  if f.kind = .loop then f.ty.params else f.ty.results

/-- The state of the validator.  The last operand is the top of the stack, the first frame the innermost
one. -/
structure FuncValidator where
  operands : List (Option ValType)
  control : List Frame
  locals : List ValType
  /-- The locals that are set and have no default value. -/
  inits : List ℕ
  /-- The operators so far. -/
  offset : ℕ
  endWhichEmptiedControl : Option ℕ
  deriving DecidableEq, Repr

/-- The plain operators of a module, its calls and its tags: the types that one takes and gives, unless
it is not valid. -/
abbrev Signature (P : Type) := P → Option FuncType

section

variable {P : Type} (r : WasmModuleResources)

namespace FuncValidator

def checkThat (cond : Bool) : Validate Unit := if cond then pure () else reject

def pushOperand (v : FuncValidator) (ty : Option ValType) : FuncValidator :=
  { v with operands := v.operands ++ [ty] }

def pushOperands (v : FuncValidator) (tys : List ValType) : FuncValidator :=
  { v with operands := v.operands ++ tys.map some }

/-- Pop an operand of any type. -/
def popAny (v : FuncValidator) : Validate (Option ValType × FuncValidator) :=
  match v.control with
  | [] => reject
  | frame :: _ =>
    if v.operands.length ≤ frame.height then
      if frame.unreachable then pure (none, v) else reject
    else
      pure (v.operands.getLast?.join, { v with operands := v.operands.dropLast })

def popOperand (v : FuncValidator) (expected : ValType) : Validate FuncValidator := do
  let (actual, v) ← v.popAny
  match actual with
  | none => pure v
  | some actual => do
    checkThat (r.isSubtype actual expected)
    pure v

/-- Pop operands of the given types, the last one first. -/
def popOperands (v : FuncValidator) (tys : List ValType) : Validate FuncValidator :=
  tys.reverse.foldlM (popOperand r) v

/-- Pop a reference. -/
def popRef (v : FuncValidator) : Validate (Option RefType × FuncValidator) := do
  let (actual, v) ← v.popAny
  match actual with
  | none => pure (none, v)
  | some (.ref ty) => pure (some ty, v)
  | some _ => reject

def pushCtrl (v : FuncValidator) (kind : FrameKind) (ty : FuncType) : FuncValidator :=
  { v with
    control := ⟨kind, ty, v.operands.length, false, v.inits.length⟩ :: v.control
    operands := v.operands ++ ty.params.map some }

def popCtrl (v : FuncValidator) : Validate (Frame × FuncValidator) :=
  match v.control with
  | [] => reject
  | frame :: control => do
    let v ← v.popOperands r frame.ty.results
    checkThat (v.operands.length = frame.height)
    pure (frame, { v with control := control, inits := v.inits.take frame.initHeight })

/-- The operands of the innermost frame are of no use any more. -/
def setUnreachable (v : FuncValidator) : Validate FuncValidator :=
  match v.control with
  | [] => reject
  | frame :: control =>
    pure { v with
      control := { frame with unreachable := true } :: control
      operands := v.operands.take frame.height }

/-- The types that a branch to the frame at a depth takes. -/
def jump (v : FuncValidator) (depth : ℕ) : Validate (List ValType) :=
  match v.control[depth]? with
  | some frame => pure frame.labelTypes
  | none => reject

def popPushLabelTypes (v : FuncValidator) (tys : List ValType) : Validate FuncValidator := do
  pure ((← v.popOperands r tys).pushOperands tys)

def checkBlockType (bt : BlockType) : Validate FuncType :=
  match r.blockTypes bt with
  | some ty => pure ty
  | none => reject

/-- The labels of a branch table take as many values as its default, of types that the operands
have. -/
def checkBrTable (v : FuncValidator) (arity : ℕ) : List ℕ → Validate Unit
  | [] => pure ()
  | depth :: depths => do
    let tys ← v.jump depth
    checkThat (tys.length = arity)
    let _ ← v.popOperands r tys
    checkBrTable v arity depths

/-- The types of the values of an exception, which has no results. -/
def exceptionTag (sig : Signature P) (tag : P) : Validate (List ValType) :=
  match sig tag with
  | some ⟨params, []⟩ => pure params
  | _ => reject

/-- What a clause of a `try_table` passes on, as its label takes it. -/
def checkCatch (sig : Signature P) (v : FuncValidator) : Catch P → Validate Unit
  | .one tag label => do
    let params ← exceptionTag sig tag
    checkThat (r.areSubtypes params (← v.jump label))
  | .oneRef tag label => do
    let params ← exceptionTag sig tag
    checkThat (r.areSubtypes (params ++ [.EXNREF]) (← v.jump label))
  | .all label => do checkThat (← v.jump label).isEmpty
  | .allRef label => do checkThat (r.areSubtypes [.EXNREF] (← v.jump label))

/-- A function that is called at the end of another one gives what that one gives. -/
def checkFuncTypeSameResults (v : FuncValidator) (callee : FuncType) : Validate Unit :=
  match v.control.getLast? with
  | none => reject
  | some frame => checkThat (r.areSubtypes callee.results frame.ty.results)

/-- A branch on the cast of a reference, which the branch takes as one type and what follows as
another. -/
def branchOnCast (v : FuncValidator) (depth : ℕ) (fromRefType taken left : RefType) :
    Validate FuncValidator := do
  let tys ← v.jump depth
  match tys.getLast? with
  | none => reject
  | some expected => do
    checkThat (r.isSubtype (.ref taken) expected)
    let v ← v.popOperand r (.ref fromRefType)
    let v ← v.popPushLabelTypes r tys.dropLast
    pure (v.pushOperand (some (.ref left)))

def selectType (ty : Option ValType) (v : FuncValidator) : Validate (Option ValType × FuncValidator) :=
  match ty with
  | some ty => do
    let v ← v.popOperand r ty
    let v ← v.popOperand r ty
    pure (some ty, v)
  | none => do
    let (ty1, v) ← v.popAny
    let (ty2, v) ← v.popAny
    checkThat (!(ty1.elim false ValType.isReference || ty2.elim false ValType.isReference))
    match ty1, ty2 with
    | some ty1, some ty2 => do
      checkThat (ty1 = ty2)
      pure (some ty1, v)
    | none, ty | ty, none => pure (ty, v)

/-- Whether a local has a value before it is set. -/
def isDefaultable : ValType → Bool
  | .ref ty => ty.nullable
  | _ => true

/-- A reference that is known not to be null. -/
def nonNull (ty : RefType) : ValType := .ref ⟨false, ty.heapType⟩

def step (sig : Signature P) (v : FuncValidator) : Operator P → Validate FuncValidator
  | .unreachable => v.setUnreachable
  | .nop => pure v
  | .drop => do pure (← v.popAny).2
  | .select ty => do
    let v ← v.popOperand r .i32
    let (ty, v) ← selectType r ty v
    pure (v.pushOperand ty)
  | .block bt => do
    let ty ← checkBlockType r bt
    let v ← v.popOperands r ty.params
    pure (v.pushCtrl .block ty)
  | .loop bt => do
    let ty ← checkBlockType r bt
    let v ← v.popOperands r ty.params
    pure (v.pushCtrl .loop ty)
  | .if_ bt => do
    let ty ← checkBlockType r bt
    let v ← v.popOperand r .i32
    let v ← v.popOperands r ty.params
    pure (v.pushCtrl .if_ ty)
  | .else_ => do
    let (frame, v) ← v.popCtrl r
    checkThat (frame.kind = .if_)
    pure (v.pushCtrl .else_ frame.ty)
  | .end_ => do
    let (frame, v) ← v.popCtrl r
    -- an `if` without an `else` is one with an empty `else`
    let v ← if frame.kind = .if_ then do pure (← (v.pushCtrl .else_ frame.ty).popCtrl r).2 else pure v
    let v := v.pushOperands frame.ty.results
    if v.control.isEmpty && v.endWhichEmptiedControl.isNone then
      pure { v with endWhichEmptiedControl := some v.offset }
    else
      pure v
  | .br depth => do
    let v ← v.popOperands r (← v.jump depth)
    v.setUnreachable
  | .brIf depth => do
    let v ← v.popOperand r .i32
    v.popPushLabelTypes r (← v.jump depth)
  | .brTable depths default => do
    let v ← v.popOperand r .i32
    let tys ← v.jump default
    checkBrTable r v tys.length depths
    let v ← v.popOperands r tys
    v.setUnreachable
  | .return_ =>
    match v.control.getLast? with
    | none => reject
    | some frame => do
      let v ← v.popOperands r frame.ty.results
      v.setUnreachable
  | .localGet i =>
    match v.locals[i]? with
    | none => reject
    | some ty => do
      checkThat (isDefaultable ty || i ∈ v.inits)
      pure (v.pushOperand (some ty))
  | .localSet i =>
    match v.locals[i]? with
    | none => reject
    | some ty => do
      let v ← v.popOperand r ty
      pure { v with inits := if i ∈ v.inits then v.inits else v.inits ++ [i] }
  | .localTee i =>
    match v.locals[i]? with
    | none => reject
    | some ty => do
      let v ← v.popOperand r ty
      let v := v.pushOperand (some ty)
      pure { v with inits := if i ∈ v.inits then v.inits else v.inits ++ [i] }
  | .refIsNull => do
    let (_, v) ← v.popRef
    pure (v.pushOperand (some .i32))
  | .refAsNonNull => do
    let (ty, v) ← v.popRef
    pure (v.pushOperand (ty.map nonNull))
  | .brOnNull depth => do
    let (ty, v) ← v.popRef
    let v ← v.popPushLabelTypes r (← v.jump depth)
    pure (v.pushOperand (ty.map nonNull))
  | .brOnNonNull depth => do
    let tys ← v.jump depth
    let (ty, v) ← v.popRef
    match tys.getLast?, ty with
    | some (.ref _), none => v.popPushLabelTypes r tys.dropLast
    | some (.ref expected), some actual => do
      checkThat (r.isSubtype (nonNull actual) (.ref expected))
      v.popPushLabelTypes r tys.dropLast
    | _, _ => reject
  | .brOnCast depth fromRefType toRefType => do
    checkThat (r.isSubtype (.ref toRefType) (.ref fromRefType))
    v.branchOnCast r depth fromRefType toRefType (fromRefType.difference toRefType)
  | .brOnCastFail depth fromRefType toRefType => do
    checkThat (r.isSubtype (.ref toRefType) (.ref fromRefType))
    v.branchOnCast r depth fromRefType (fromRefType.difference toRefType) toRefType
  | .tryTable t => do
    let ty ← checkBlockType r t.ty
    let v ← v.popOperands r ty.params
    t.catches.forM (checkCatch r sig v)
    pure (v.pushCtrl .tryTable ty)
  | .throw tag => do
    let v ← v.popOperands r (← exceptionTag sig tag)
    v.setUnreachable
  | .throwRef => do
    let v ← v.popOperand r .EXNREF
    v.setUnreachable
  | .returnCall p | .returnCallIndirect p =>
    match sig p with
    | none => reject
    | some ty => do
      checkFuncTypeSameResults r v ty
      let v ← v.popOperands r ty.params
      v.setUnreachable
  | .call p | .callIndirect p | .plain p =>
    match sig p with
    | none => reject
    | some ty => do
      let v ← v.popOperands r ty.params
      pure (v.pushOperands ty.results)

/-- Validate one operator. -/
def op (sig : Signature P) (v : FuncValidator) (o : Operator P) : Validate FuncValidator := do
  let v ← step r sig v o
  pure { v with offset := v.offset + 1 }

def MAX_WASM_FUNCTION_LOCALS : ℕ := 50000

/-- Declare `count` locals of a type. -/
def defineLocals (v : FuncValidator) (count : ℕ) (ty : ValType) : Validate FuncValidator := do
  checkThat (v.locals.length + count ≤ MAX_WASM_FUNCTION_LOCALS)
  pure { v with locals := v.locals ++ List.replicate count ty }

/-- The body has to end with the operator that closed its outermost frame. -/
def finish (v : FuncValidator) : Validate Unit :=
  match v.endWhichEmptiedControl with
  | none => reject
  | some offset => checkThat (v.control.isEmpty && v.offset == offset + 1)

/-- The validator for a function of the given type and locals, its parameters included. -/
def new (ty : FuncType) (locals : List ValType) : FuncValidator :=
  { operands := []
    control := [⟨.block, ⟨[], ty.results⟩, 0, false, 0⟩]
    locals := locals
    inits := List.range ty.params.length
    offset := 0
    endWhichEmptiedControl := none }

end FuncValidator

end

end K23VM.Wasmparser
