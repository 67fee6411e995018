import K23VM.Lib.MapM
import K23VM.Proofs.FuncValidator
import K23VM.Proofs.TypedCode

/-!
# The stack and the operands

Where code is reached the values on the translator's stack are, from frame to frame, those of the
validator's operands, and for an `if` whose consequent is being translated there is once more a copy of
its parameters below them.
-/

namespace K23VM.Cranelift

open Wasmparser FunctionBuilder

variable {Q : Type}

/-! ## Values and types -/

section

variable (env : TranslationEnvironment Q) (b : FunctionBuilder Q)

/-- A value of the type that stands for `ty`, where a vector may have any lanes. -/
def Represents (ty : ValType) (val : ℕ) : Prop :=
  val < b.numValues ∧ env.valueType ty = .ok (b.valueType val).canonical

def Holds (tys : List ValType) (vals : List ℕ) : Prop := List.Forall₂ (Represents env b) tys vals

/-- A block whose parameters stand for `tys`. -/
def Takes (block : ℕ) (tys : List ValType) : Prop :=
  block < b.numBlocks
    ∧ ∃ types, tys.mapM env.valueType = .ok types ∧ b.Typed (b.blockParams block) types

end

/-- What is assumed of the types of a module: a subtype is represented as its supertype is, and
pointers are no vectors. -/
structure TypesOk (env : TranslationEnvironment Q) : Prop where
  pointerType : env.pointerType.isVector = false
  subtype : ∀ {a b : ValType} {ty : Ty}, env.resources.isSubtype a b = true →
    env.valueType a = .ok ty → env.valueType b = .ok ty

variable {env : TranslationEnvironment Q} {b b' : FunctionBuilder Q}

theorem referenceType_cases {pointerType ty : Ty} {hty : WasmHeapType}
    (h : referenceType pointerType hty = .ok ty) : ty = pointerType ∨ ty = .I32 := by
  unfold referenceType at h
  split at h <;> cases h
  · exact .inl rfl
  · exact .inr rfl
  · exact .inr rfl

theorem valueType_canonical (henv : TypesOk env) {vt : ValType} {ty : Ty}
    (h : env.valueType vt = .ok ty) : ty.canonical = ty := by
  cases vt with
  | ref rt =>
    obtain ⟨hty, -, h⟩ := bind_eq_ok.1 h
    rcases referenceType_cases h with rfl | rfl
    · exact Ty.canonical_of_not_isVector henv.pointerType
    · rfl
  | _ =>
    cases h
    rfl

theorem represents_of_typed (henv : TypesOk env) {ty : ValType} {val : ℕ} {type : Ty}
    (hty : env.valueType ty = .ok type) (h : b.Typed [val] [type]) : Represents env b ty val := by
  obtain ⟨hval, rfl⟩ := typed_singleton_iff.1 h
  exact ⟨hval, by rw [valueType_canonical henv hty, hty]⟩

theorem Represents.mono {ty : ValType} {val : ℕ} (h : Represents env b ty val) (hb : Extends b b') :
    Represents env b' ty val :=
  ⟨h.1.trans_le hb.values, by rw [hb.valueType val h.1, h.2]⟩

theorem Represents.subtype (henv : TypesOk env) {ty ty' : ValType} {val : ℕ}
    (h : Represents env b ty val) (hsub : env.resources.isSubtype ty ty' = true) :
    Represents env b ty' val := ⟨h.1, henv.subtype hsub h.2⟩

theorem Represents.nonNull {ty : RefType} {val : ℕ} (h : Represents env b (.ref ty) val) :
    Represents env b (FuncValidator.nonNull ty) val := h

theorem Holds.mono {tys : List ValType} {vals : List ℕ} (h : Holds env b tys vals)
    (hb : Extends b b') : Holds env b' tys vals := h.imp fun _ _ hval => hval.mono hb

theorem Holds.subtypes (henv : TypesOk env) {tys tys' : List ValType} {vals : List ℕ}
    (h : Holds env b tys vals)
    (hsub : List.Forall₂ (fun ty ty' => env.resources.isSubtype ty ty' = true) tys tys') :
    Holds env b tys' vals := by
  induction hsub generalizing vals with
  | nil => exact h
  | cons hty _ ih =>
    obtain - | ⟨hval, hvals⟩ := h
    exact .cons (hval.subtype henv hty) (ih hvals)

theorem Holds.length {tys : List ValType} {vals : List ℕ} (h : Holds env b tys vals) :
    tys.length = vals.length := List.Forall₂.length_eq h

theorem Holds.canonical {tys : List ValType} {vals : List ℕ} {types : List Ty}
    (h : Holds env b tys vals) (htypes : tys.mapM env.valueType = .ok types) :
    b.Canonical vals types := by
  rw [mapM_eq_ok_iff] at htypes
  induction h generalizing types with
  | nil =>
    cases htypes
    exact .nil
  | cons hval _ ih =>
    obtain - | ⟨hty, htypes⟩ := htypes
    exact .cons ⟨hval.1, Except.ok.inj (hval.2.symm.trans hty)⟩ (ih htypes)

theorem holds_of_typed (henv : TypesOk env) {tys : List ValType} {vals : List ℕ} {types : List Ty}
    (htypes : tys.mapM env.valueType = .ok types) (h : b.Typed vals types) : Holds env b tys vals := by
  rw [mapM_eq_ok_iff] at htypes
  induction htypes generalizing vals with
  | nil =>
    obtain rfl := List.map_eq_nil_iff.1 h.2
    exact .nil
  | cons hty _ ih =>
    obtain ⟨val, vals, rfl, hval, hvals⟩ := List.map_eq_cons_iff.1 h.2
    have hlt := List.forall_mem_cons.1 h.1
    refine .cons ⟨hlt.1, ?_⟩ (ih ⟨hlt.2, hvals⟩)
    rw [hval, hty, valueType_canonical henv hty]

theorem Takes.mono {block : ℕ} {tys : List ValType} (h : Takes env b block tys) (hb : Extends b b') :
    Takes env b' block tys := by
  obtain ⟨hlt, types, htypes, htyped⟩ := h
  refine ⟨hlt.trans_le hb.blocks, types, htypes, ?_⟩
  rw [hb.params block hlt]
  exact htyped.mono hb

theorem Takes.holds (henv : TypesOk env) {block : ℕ} {tys : List ValType}
    (h : Takes env b block tys) : Holds env b tys (b.blockParams block) := by
  obtain ⟨-, types, htypes, htyped⟩ := h
  exact holds_of_typed henv htypes htyped

/-- A jump with values of the types that the block takes. -/
theorem Takes.jump {block : ℕ} {tys : List ValType} {vals stack : List ℕ} (h : Takes env b block tys)
    (hvals : Holds env b tys vals) (hpos : b.position < b.numBlocks) (hstack : vals <:+: stack) :
    Builds stack b (b.canonicaliseThenJump block vals) := by
  obtain ⟨hlt, types, htypes, htyped⟩ := h
  exact canonicaliseThenJump_builds (hvals.canonical htypes) htyped hlt hpos hstack

/-- A conditional branch with values of the types that either block takes. -/
theorem Takes.brif {blockThen blockElse : ℕ} {tysThen tysElse : List ValType}
    {valsThen valsElse stack : List ℕ} (cond : ℕ) (hthen : Takes env b blockThen tysThen)
    (helse : Takes env b blockElse tysElse) (hvalsThen : Holds env b tysThen valsThen)
    (hvalsElse : Holds env b tysElse valsElse) (hpos : b.position < b.numBlocks)
    (hstackThen : valsThen <:+: stack) (hstackElse : valsElse <:+: stack) :
    Builds stack b (b.canonicaliseBrif cond blockThen valsThen blockElse valsElse) := by
  obtain ⟨hltThen, typesThen, htypesThen, htypedThen⟩ := hthen
  obtain ⟨hltElse, typesElse, htypesElse, htypedElse⟩ := helse
  exact canonicaliseBrif_builds (hvalsThen.canonical htypesThen) (hvalsElse.canonical htypesElse)
    htypedThen htypedElse hltThen hltElse hpos hstackThen hstackElse

/-- A block without parameters. -/
def Bare (b : FunctionBuilder Q) (block : ℕ) : Prop :=
  block < b.numBlocks ∧ b.blockParams block = []

theorem Bare.mono {block : ℕ} (h : Bare b block) (hb : Extends b b') : Bare b' block :=
  ⟨h.1.trans_le hb.blocks, (hb.params block h.1).trans h.2⟩

theorem Bare.takes {block : ℕ} (h : Bare b block) : Takes env b block [] :=
  ⟨h.1, [], rfl, by rw [h.2]; exact typed_nil⟩

theorem createBlock_bare (b : FunctionBuilder Q) : Bare b.createBlock.2 b.numBlocks :=
  ⟨Nat.lt_succ_self _, createBlock_blockParams⟩

/-! ## Frames -/

/-- What the branch at the head of an `if` goes to where the condition does not hold. -/
def ElseOk (env : TranslationEnvironment Q) (b : FunctionBuilder Q) (destination : ℕ) (ty : FuncType) :
    ElseData → Prop
  | .noElse _ placeholder => placeholder = destination ∧ ty.params = ty.results
  | .withElse elseBlock => Takes env b elseBlock ty.params

/-- The data of a frame and the kind of the validator's. -/
inductive DataOk (env : TranslationEnvironment Q) (b : FunctionBuilder Q) (destination : ℕ) (g : Frame) :
    FrameData → Prop
  | block (hkind : g.kind = .block) : DataOk env b destination g .block
  | loop {header : ℕ} (hkind : g.kind = .loop) (htakes : Takes env b header g.ty.params) :
    DataOk env b destination g (.loop header)
  | if_ {elseData : ElseData} {bt : BlockType} (hkind : g.kind = .if_)
    (hty : env.resources.blockTypes bt = some g.ty) (helse : ElseOk env b destination g.ty elseData) :
    DataOk env b destination g (.if_ elseData bt true none)
  | else_ {elseData : ElseData} {bt : BlockType} {ends : Bool} (hkind : g.kind = .else_) :
    DataOk env b destination g (.if_ elseData bt true (some ends))

/-- A frame of the translator and the validator's, opened in code that is reached. -/
structure FrameOk (env : TranslationEnvironment Q) (b : FunctionBuilder Q) (f : ControlStackFrame)
    (g : Frame) : Prop where
  takes : Takes env b f.destination g.ty.results
  numParams : f.numParamValues = g.ty.params.length
  numReturns : f.numReturnValues = g.ty.results.length
  data : DataOk env b f.destination g f.data

/-- The number of values that the copy of the parameters of an `if` adds to the size a frame
remembers. -/
def ControlStackFrame.extra (f : ControlStackFrame) : ℕ :=
  match f.data with
  | .if_ .. => f.numParamValues
  | _ => 0

/-- Where the values of a frame start: above those of the frames around it, `stack`, and for the
consequent of an `if` above the copy of the parameters, `dup`. -/
structure Base (env : TranslationEnvironment Q) (b : FunctionBuilder Q) (stack dup : List ℕ)
    (tys : List ValType) (f : ControlStackFrame) (g : Frame) : Prop where
  frame : FrameOk env b f g
  height : g.height = tys.length
  size : f.originalStackSize = stack.length + f.extra
  size_lt : f.originalStackSize < 2 ^ 64
  dup : match f.data with
    | .if_ _ _ _ none => Holds env b g.ty.params dup
    | _ => dup = []

/-- The values on the stack and the types of the operands, frame by frame, with the values below each
frame. -/
inductive Layout (env : TranslationEnvironment Q) (b : FunctionBuilder Q) :
    List (List ℕ) → List ℕ → List ValType → List ControlStackFrame → List Frame → Prop
  | nil : Layout env b [] [] [] [] []
  | cons {bases : List (List ℕ)} {stack below dup vals : List ℕ} {tys tysBelow tysAbove : List ValType}
    {f : ControlStackFrame} {g : Frame} {frames : List ControlStackFrame} {control : List Frame}
    (hstack : stack = below ++ dup ++ vals) (htys : tys = tysBelow ++ tysAbove)
    (hbelow : Layout env b bases below tysBelow frames control)
    (hbase : Base env b below dup tysBelow f g) (hreached : g.unreachable = false)
    (hvals : Holds env b tysAbove vals) :
    Layout env b (below :: bases) stack tys (f :: frames) (g :: control)

section Frames

variable {f : ControlStackFrame} {g : Frame} {frames : List ControlStackFrame} {control : List Frame}
  {stack : List ℕ} {tys : List ValType} {bases : List (List ℕ)}

theorem ElseOk.mono {destination : ℕ} {ty : FuncType} {elseData : ElseData}
    (h : ElseOk env b destination ty elseData) (hb : Extends b b') :
    ElseOk env b' destination ty elseData := by
  cases elseData with
  | noElse => exact h
  | withElse => exact Takes.mono h hb

theorem DataOk.mono {destination : ℕ} {data : FrameData} (h : DataOk env b destination g data)
    (hb : Extends b b') : DataOk env b' destination g data := by
  cases h with
  | block hkind => exact .block hkind
  | loop hkind htakes => exact .loop hkind (htakes.mono hb)
  | if_ hkind hty helse => exact .if_ hkind hty (helse.mono hb)
  | else_ hkind => exact .else_ hkind

theorem FrameOk.mono (h : FrameOk env b f g) (hb : Extends b b') : FrameOk env b' f g :=
  ⟨h.takes.mono hb, h.numParams, h.numReturns, h.data.mono hb⟩

theorem Base.mono {below dup : List ℕ} (h : Base env b below dup tys f g) (hb : Extends b b') :
    Base env b' below dup tys f g := by
  refine ⟨h.frame.mono hb, h.height, h.size, h.size_lt, ?_⟩
  have hdup := h.dup
  split at hdup
  · exact Holds.mono hdup hb
  · exact hdup

theorem Layout.mono (h : Layout env b bases stack tys frames control) (hb : Extends b b') :
    Layout env b' bases stack tys frames control := by
  induction h with
  | nil => exact .nil
  | cons hstack htys _ hbase hreached hvals ih =>
    exact .cons hstack htys ih (hbase.mono hb) hreached (hvals.mono hb)

theorem Layout.framesOk (h : Layout env b bases stack tys frames control) :
    List.Forall₂ (FrameOk env b) frames control := by
  induction h with
  | nil => exact .nil
  | cons _ _ _ hbase _ _ ih => exact .cons hbase.frame ih

/-- A branch to a frame. -/
theorem FrameOk.label (h : FrameOk env b f g) :
    f.brArity = g.labelTypes.length ∧ Takes env b f.brDestination g.labelTypes := by
  have hdata := h.data
  unfold ControlStackFrame.brArity ControlStackFrame.isLoop ControlStackFrame.brDestination
    Frame.labelTypes
  generalize f.data = data at hdata
  cases hdata with
  | loop hkind htakes =>
    rw [if_pos hkind]
    exact ⟨h.numParams, htakes⟩
  | block hkind | if_ hkind | else_ hkind =>
    have hne : g.kind ≠ .loop := by
      rw [hkind]
      decide
    rw [if_neg hne]
    exact ⟨h.numReturns, h.takes⟩

/-- The size of the stack below a frame. -/
theorem Base.sizeBefore {below dup : List ℕ} (h : Base env b below dup tys f g) (debug : Bool) :
    f.sizeBefore debug = .ok below.length := by
  have hsize := h.size
  have hlt := h.size_lt
  cases hdata : f.data with
  | if_ elseData blocktype headIsReachable consequentEndsReachable =>
    simp only [ControlStackFrame.extra, hdata] at hsize
    have hwrap : wrappingSub f.originalStackSize f.numParamValues = below.length := by
      unfold wrappingSub
      omega
    simp only [ControlStackFrame.sizeBefore, hdata]
    rw [decide_eq_true (by omega), debugAssert_true]
    exact congrArg Except.ok hwrap
  | block =>
    simp only [ControlStackFrame.extra, hdata] at hsize
    simp only [ControlStackFrame.sizeBefore, hdata]
    exact congrArg Except.ok hsize
  | loop header =>
    simp only [ControlStackFrame.extra, hdata] at hsize
    simp only [ControlStackFrame.sizeBefore, hdata]
    exact congrArg Except.ok hsize

theorem Base.height_le {below dup : List ℕ} {tysAbove : List ValType}
    (h : Base env b below dup tys f g) : g.height ≤ (tys ++ tysAbove).length := by
  rw [h.height, List.length_append]
  exact Nat.le_add_right _ _

theorem Layout.push {tys' : List ValType} {vals : List ℕ}
    (h : Layout env b bases stack tys (f :: frames) (g :: control)) (hvals : Holds env b tys' vals) :
    Layout env b bases (stack ++ vals) (tys ++ tys') (f :: frames) (g :: control) := by
  obtain - | ⟨rfl, rfl, hbelow, hbase, hreached, habove⟩ := h
  exact .cons (List.append_assoc _ _ _) (List.append_assoc _ _ _) hbelow hbase hreached
    (List.rel_append habove hvals)

/-- Operands of the innermost frame are values on top of the stack. -/
theorem Layout.pop {tysAll tys' : List ValType}
    (h : Layout env b bases stack tysAll (f :: frames) (g :: control)) (hall : tysAll = tys ++ tys')
    (hle : g.height ≤ tys.length) :
    ∃ stack' vals, stack = stack' ++ vals ∧ Layout env b bases stack' tys (f :: frames) (g :: control)
      ∧ Holds env b tys' vals := by
  obtain - | ⟨rfl, htys, hbelow, hbase, hreached, habove⟩ := h
  rw [hbase.height] at hle
  have heq := hall.symm.trans htys
  obtain ⟨mid, rfl⟩ := List.prefix_of_prefix_length_le (List.prefix_append _ _)
    (heq ▸ List.prefix_append tys tys') hle
  rw [List.append_assoc] at heq
  obtain rfl := List.append_cancel_left heq
  obtain ⟨vals, vals', rfl, hmid, hvals⟩ := forall₂_append_left habove
  exact ⟨_, vals', (List.append_assoc _ _ _).symm, .cons rfl rfl hbelow hbase hreached hmid, hvals⟩

theorem FrameOk.setBranchedToExit (h : FrameOk env b f g) : FrameOk env b f.setBranchedToExit g := by
  unfold ControlStackFrame.setBranchedToExit
  split_ifs
  · exact h
  · exact ⟨h.takes, h.numParams, h.numReturns, h.data⟩

theorem Base.setBranchedToExit {below dup : List ℕ} (h : Base env b below dup tys f g) :
    Base env b below dup tys f.setBranchedToExit g := by
  refine ⟨h.frame.setBranchedToExit, h.height, ?_, ?_, ?_⟩
  all_goals
    unfold ControlStackFrame.setBranchedToExit
    split_ifs
  · exact h.size
  · exact h.size
  · exact h.size_lt
  · exact h.size_lt
  · exact h.dup
  · exact h.dup

/-- It makes no difference whether the frame at a depth is branched to. -/
theorem Layout.setBranchedTo (h : Layout env b bases stack tys frames control) (depth : ℕ) :
    Layout env b bases stack tys (frames.modify depth (·.setBranchedToExit)) control := by
  induction h generalizing depth with
  | nil =>
    rw [List.modify_nil]
    exact .nil
  | cons hstack htys hbelow hbase hreached hvals ih =>
    cases depth with
    | zero => exact .cons hstack htys hbelow hbase.setBranchedToExit hreached hvals
    | succ depth => exact .cons hstack htys (ih depth) hbase hreached hvals

end Frames

/-! ## Code that is reached -/

/-- There is a value on the stack for each operand. -/
def Live (env : TranslationEnvironment Q) (b : FunctionBuilder Q) (bases : List (List ℕ))
    (stack : List ℕ) (frames : List ControlStackFrame) (v : FuncValidator) : Prop :=
  frames ≠ [] ∧ ∃ tys, v.operands = tys.map some ∧ Layout env b bases stack tys frames v.control

section Live

variable {bases : List (List ℕ)} {stack : List ℕ} {frames : List ControlStackFrame}
  {v v' : FuncValidator}

theorem Live.mono (h : Live env b bases stack frames v) (hb : Extends b b') :
    Live env b' bases stack frames v := by
  obtain ⟨hne, tys, hops, hlayout⟩ := h
  exact ⟨hne, tys, hops, hlayout.mono hb⟩

theorem Live.congr (h : Live env b bases stack frames v) (hops : v'.operands = v.operands)
    (hc : v'.control = v.control) : Live env b bases stack frames v' := by
  unfold Live
  rw [hops, hc]
  exact h

theorem Live.setBranchedTo (h : Live env b bases stack frames v) (depth : ℕ) :
    Live env b bases stack (frames.modify depth (·.setBranchedToExit)) v := by
  obtain ⟨hne, tys, hops, hlayout⟩ := h
  refine ⟨fun hnil => hne ?_, tys, hops, hlayout.setBranchedTo depth⟩
  rw [← List.length_eq_zero_iff, ← List.length_modify (·.setBranchedToExit) frames depth, hnil]
  rfl

/-- The innermost frame, whose code is reached. -/
theorem Live.cases (h : Live env b bases stack frames v) :
    ∃ f fs g control tys, frames = f :: fs ∧ v.control = g :: control ∧ v.operands = tys.map some
      ∧ Layout env b bases stack tys (f :: fs) (g :: control) ∧ g.unreachable = false
      ∧ g.height ≤ tys.length := by
  obtain ⟨hne, tys, hops, hlayout⟩ := h
  generalize v.control = control at hlayout
  cases hlayout with
  | nil => exact absurd rfl hne
  | cons hstack htys hbelow hbase hreached hvals =>
    subst htys
    exact ⟨_, _, _, _, _, rfl, rfl, hops, .cons hstack rfl hbelow hbase hreached hvals, hreached,
      hbase.height_le⟩

theorem Live.pushOperands {tys : List ValType} {vals : List ℕ} (h : Live env b bases stack frames v)
    (hvals : Holds env b tys vals) : Live env b bases (stack ++ vals) frames (v.pushOperands tys) := by
  obtain ⟨f, fs, g, control, tys₀, rfl, hc, hops, hlayout, -, -⟩ := h.cases
  refine ⟨List.cons_ne_nil _ _, tys₀ ++ tys, ?_, ?_⟩
  · unfold FuncValidator.pushOperands
    rw [hops, List.map_append]
  · unfold FuncValidator.pushOperands
    rw [hc]
    exact hlayout.push hvals

theorem Live.pushOperand {ty : ValType} {val : ℕ} (h : Live env b bases stack frames v)
    (hval : Represents env b ty val) :
    Live env b bases (stack ++ [val]) frames (v.pushOperand (some ty)) :=
  h.pushOperands (.cons hval .nil)

/-- Operands that are popped, with the values on top of the stack. -/
theorem Live.pop {f : ControlStackFrame} {fs : List ControlStackFrame} {g : Frame}
    {control : List Frame} {tys tys' : List ValType}
    (hlayout : Layout env b bases stack (tys ++ tys') (f :: fs) (g :: control))
    (hc : v.control = g :: control) (hle : g.height ≤ tys.length) :
    ∃ stack' vals, stack = stack' ++ vals ∧ Holds env b tys' vals
      ∧ Live env b bases stack' (f :: fs) { v with operands := tys.map some } := by
  obtain ⟨stack', vals, rfl, hlayout', hvals⟩ := hlayout.pop rfl hle
  refine ⟨stack', vals, rfl, hvals, List.cons_ne_nil _ _, tys, rfl, ?_⟩
  rw [← hc] at hlayout'
  exact hlayout'

theorem Live.popAny {ty : Option ValType} (h : Live env b bases stack frames v)
    (hpop : v.popAny = .ok (ty, v')) :
    ∃ stack' val ty', stack = stack' ++ [val] ∧ ty = some ty' ∧ Represents env b ty' val
      ∧ Live env b bases stack' frames v' := by
  obtain ⟨f, fs, g, control, tys, rfl, hc, hops, hlayout, hreached, -⟩ := h.cases
  obtain ⟨tys', t, rfl, rfl, hle, rfl⟩ := FuncValidator.popAny_known hops hc hreached hpop
  obtain ⟨stack', vals, rfl, hvals, hlive⟩ := Live.pop hlayout hc hle
  obtain - | ⟨hval, hnil⟩ := hvals
  cases hnil
  exact ⟨stack', _, t, rfl, rfl, hval, hlive⟩

theorem Live.popOperand (henv : TypesOk env) {ty : ValType} (h : Live env b bases stack frames v)
    (hpop : v.popOperand env.resources ty = .ok v') :
    ∃ stack' val, stack = stack' ++ [val] ∧ Represents env b ty val
      ∧ Live env b bases stack' frames v' := by
  obtain ⟨f, fs, g, control, tys, rfl, hc, hops, hlayout, hreached, -⟩ := h.cases
  obtain ⟨tys', t, rfl, hsub, hle, rfl⟩ := FuncValidator.popOperand_known hops hc hreached hpop
  obtain ⟨stack', vals, rfl, hvals, hlive⟩ := Live.pop hlayout hc hle
  obtain - | ⟨hval, hnil⟩ := hvals
  cases hnil
  exact ⟨stack', _, rfl, hval.subtype henv hsub, hlive⟩

theorem Live.popOperands (henv : TypesOk env) {tys : List ValType} (h : Live env b bases stack frames v)
    (hpop : v.popOperands env.resources tys = .ok v') :
    ∃ stack' vals, stack = stack' ++ vals ∧ Holds env b tys vals
      ∧ Live env b bases stack' frames v' := by
  obtain ⟨f, fs, g, control, tys₀, rfl, hc, hops, hlayout, hreached, hheight⟩ := h.cases
  obtain ⟨tys', ts, rfl, hsubs, hle, rfl⟩ := FuncValidator.popOperands_known hops hc hreached hpop
  obtain ⟨stack', vals, rfl, hvals, hlive⟩ := Live.pop hlayout hc (hle hheight)
  exact ⟨stack', vals, rfl, hvals.subtypes henv hsubs, hlive⟩

theorem Live.popRef {ty : Option RefType} (h : Live env b bases stack frames v)
    (hpop : v.popRef = .ok (ty, v')) :
    ∃ stack' val ty', stack = stack' ++ [val] ∧ ty = some ty' ∧ Represents env b (.ref ty') val
      ∧ Live env b bases stack' frames v' := by
  obtain ⟨f, fs, g, control, tys, rfl, hc, hops, hlayout, hreached, -⟩ := h.cases
  obtain ⟨tys', t, rfl, rfl, hle, rfl⟩ := FuncValidator.popRef_known hops hc hreached hpop
  obtain ⟨stack', vals, rfl, hvals, hlive⟩ := Live.pop hlayout hc hle
  obtain - | ⟨hval, hnil⟩ := hvals
  cases hnil
  exact ⟨stack', _, t, rfl, rfl, hval, hlive⟩

/-- The types of a label are popped and pushed again, and the values stay as they are. -/
theorem Live.popPushLabelTypes (henv : TypesOk env) {tys : List ValType}
    (h : Live env b bases stack frames v) (hpop : v.popPushLabelTypes env.resources tys = .ok v') :
    ∃ stack' vals, stack = stack' ++ vals ∧ Holds env b tys vals
      ∧ Live env b bases stack frames v' := by
  unfold FuncValidator.popPushLabelTypes at hpop
  obtain ⟨v1, h1, hpush⟩ := bind_eq_ok.1 hpop
  cases hpush
  obtain ⟨stack', vals, rfl, hvals, hlive⟩ := h.popOperands henv h1
  exact ⟨stack', vals, rfl, hvals, hlive.pushOperands hvals⟩

/-- The frame at a depth to which there can be a branch. -/
theorem Live.jump {depth : ℕ} {tys : List ValType} (h : Live env b bases stack frames v)
    (hjump : v.jump depth = .ok tys) :
    ∃ f, frames[depth]? = some f ∧ f.brArity = tys.length ∧ Takes env b f.brDestination tys := by
  obtain ⟨_, _, _, hlayout⟩ := h
  unfold FuncValidator.jump at hjump
  split at hjump
  next g hg =>
    cases hjump
    obtain ⟨f, hf, hframe⟩ := forall₂_getElem? hlayout.framesOk.flip hg
    exact ⟨f, hf, FrameOk.label hframe⟩
  · cases hjump

/-- The innermost frame is closed over its results. -/
theorem Live.popCtrl (henv : TypesOk env) {g : Frame} (h : Live env b bases stack frames v)
    (hpop : v.popCtrl env.resources = .ok (g, v')) :
    ∃ f fs below bases' dup vals tys, frames = f :: fs ∧ bases = below :: bases'
      ∧ stack = below ++ dup ++ vals ∧ Base env b below dup tys f g
        ∧ Holds env b g.ty.results vals ∧ v'.operands = tys.map some
      ∧ Layout env b bases' below tys fs v'.control := by
  obtain ⟨control, v1, hc, h1, hlen, rfl⟩ := FuncValidator.popCtrl_cases hpop
  have hc1 : v1.control = g :: control := (FuncValidator.popOperands_keeps h1).control.trans hc
  obtain ⟨stack', vals, rfl, hvals, -, tys, hops, hlayout⟩ := h.popOperands henv h1
  rw [hc1] at hlayout
  obtain - | ⟨rfl, rfl, hbelow, hbase, -, habove⟩ := hlayout
  rw [hops, List.length_map, List.length_append, hbase.height] at hlen
  obtain rfl := List.length_eq_zero_iff.1 (Nat.add_eq_left.1 hlen)
  cases habove
  rw [List.append_nil] at hops ⊢
  exact ⟨_, _, _, _, _, vals, _, rfl, rfl, rfl, hbase, hvals, hops, hbelow⟩

/-- A frame is opened over its parameters. -/
theorem live_pushCtrl {f : ControlStackFrame} {kind : FrameKind} {ty : FuncType}
    {below dup vals : List ℕ} {tys : List ValType} (hops : v.operands = tys.map some)
    (hlayout : Layout env b bases below tys frames v.control)
    (hbase : Base env b below dup tys f ⟨kind, ty, v.operands.length, false, v.inits.length⟩)
    (hvals : Holds env b ty.params vals) :
    Live env b (below :: bases) (below ++ dup ++ vals) (f :: frames) (v.pushCtrl kind ty) := by
  refine ⟨List.cons_ne_nil _ _, tys ++ ty.params, ?_, .cons rfl rfl hlayout hbase rfl hvals⟩
  unfold FuncValidator.pushCtrl
  rw [hops, List.map_append]

end Live

/-! ## Code that is not reached -/

/-- The frame of a block that was opened in code that is not reached. -/
inductive PlaceholderData (g : Frame) : FrameData → Prop
  | block (hkind : g.kind ≠ .if_) : PlaceholderData g .block
  | if_ {elseData : ElseData} {bt : BlockType} (hkind : g.kind = .if_) :
    PlaceholderData g (.if_ elseData bt false none)
  | else_ {elseData : ElseData} {bt : BlockType} {ends : Bool} (hkind : g.kind = .else_) :
    PlaceholderData g (.if_ elseData bt false (some ends))

structure Placeholder (size : ℕ) (f : ControlStackFrame) (g : Frame) : Prop where
  numParams : f.numParamValues = 0
  size : f.originalStackSize = size
  branched : f.exitIsBranchedTo = false
  data : PlaceholderData g f.data

/-- The frames of code that is not reached, over a frame whose code was reached.  Below a placeholder are
all values. -/
inductive Dead (env : TranslationEnvironment Q) (b : FunctionBuilder Q) (stack : List ℕ) :
    List (List ℕ) → List (Option ValType) → List ControlStackFrame → List Frame → Prop
  | top {bases : List (List ℕ)} {below dup junk : List ℕ} {operands ops : List (Option ValType)}
    {tys : List ValType}
    {f : ControlStackFrame} {g : Frame} {frames : List ControlStackFrame} {control : List Frame}
    (hstack : stack = below ++ dup ++ junk) (hops : operands = tys.map some ++ ops)
    (hbelow : Layout env b bases below tys frames control) (hbase : Base env b below dup tys f g) :
    Dead env b stack (below :: bases) operands (f :: frames) (g :: control)
  | placeholder {bases : List (List ℕ)} {operands opsBelow ops : List (Option ValType)}
    {f : ControlStackFrame} {g : Frame}
    {frames : List ControlStackFrame} {control : List Frame} (hops : operands = opsBelow ++ ops)
    (hdead : Dead env b stack bases opsBelow frames control) (hheight : g.height = opsBelow.length)
    (hf : Placeholder stack.length f g) :
    Dead env b stack (stack :: bases) operands (f :: frames) (g :: control)

section Dead

variable {bases : List (List ℕ)} {stack : List ℕ} {operands operands' : List (Option ValType)}
  {frames : List ControlStackFrame} {g : Frame} {control : List Frame} {v v' : FuncValidator}

theorem Dead.height_le (h : Dead env b stack bases operands frames (g :: control)) :
    g.height ≤ operands.length := by
  cases h with
  | top _ hops _ hbase =>
    rw [hops, hbase.height, List.length_append, List.length_map]
    exact Nat.le_add_right _ _
  | placeholder hops _ hheight _ =>
    rw [hops, hheight, List.length_append]
    exact Nat.le_add_right _ _

/-- The operands above the height of the innermost frame are of no matter. -/
theorem Dead.exchange (h : Dead env b stack bases operands frames (g :: control))
    (htake : operands'.take g.height = operands.take g.height) :
    Dead env b stack bases operands' frames (g :: control) := by
  have hsplit := (List.take_append_drop g.height operands').symm
  rw [htake] at hsplit
  cases h with
  | top hstack hops hbelow hbase =>
    rw [hops, hbase.height, ← List.length_map some, List.take_left] at hsplit
    exact .top hstack hsplit hbelow hbase
  | placeholder hops hdead hheight hf =>
    rw [hops, hheight, List.take_left] at hsplit
    exact .placeholder hsplit hdead hheight hf

/-- The flag of the validator's frame is of no matter. -/
theorem DataOk.unreachable {destination : ℕ} {data : FrameData} (h : DataOk env b destination g data) :
    DataOk env b destination { g with unreachable := true } data := by
  cases h with
  | block hkind => exact .block hkind
  | loop hkind htakes => exact .loop hkind htakes
  | if_ hkind hty helse => exact .if_ hkind hty helse
  | else_ hkind => exact .else_ hkind

theorem PlaceholderData.unreachable {data : FrameData} (h : PlaceholderData g data) :
    PlaceholderData { g with unreachable := true } data := by
  cases h with
  | block hkind => exact .block hkind
  | if_ hkind => exact .if_ hkind
  | else_ hkind => exact .else_ hkind

theorem Dead.unreachable (h : Dead env b stack bases operands frames (g :: control)) :
    Dead env b stack bases operands frames ({ g with unreachable := true } :: control) := by
  cases h with
  | top hstack hops hbelow hbase =>
    have hframe := hbase.frame
    exact .top hstack hops hbelow ⟨⟨hframe.takes, hframe.numParams, hframe.numReturns,
      hframe.data.unreachable⟩, hbase.height, hbase.size, hbase.size_lt, hbase.dup⟩
  | placeholder hops hdead hheight hf =>
    exact .placeholder hops hdead hheight ⟨hf.numParams, hf.size, hf.branched, hf.data.unreachable⟩

theorem Dead.mono (h : Dead env b stack bases operands frames control) (hb : Extends b b') :
    Dead env b' stack bases operands frames control := by
  induction h with
  | top hstack hops hbelow hbase => exact .top hstack hops (hbelow.mono hb) (hbase.mono hb)
  | placeholder hops _ hheight hf ih => exact .placeholder hops ih hheight hf

/-- Code that was reached up to here, with other values above those of the operands. -/
theorem Live.dead (h : Live env b bases stack frames v) (junk : List ℕ) :
    Dead env b (stack ++ junk) bases v.operands frames v.control := by
  obtain ⟨f, fs, g, control, tys, rfl, hc, hops, hlayout, -, -⟩ := h.cases
  obtain - | ⟨rfl, rfl, hbelow, hbase, -, -⟩ := hlayout
  rw [hc, hops, List.map_append]
  exact .top (List.append_assoc _ _ _) rfl hbelow hbase

theorem Dead.keeps (h : Dead env b stack bases v.operands frames v.control)
    (hkeeps : FuncValidator.Keeps v v') : Dead env b stack bases v'.operands frames v'.control := by
  rw [hkeeps.control]
  cases hc : v.control with
  | nil =>
    rw [hc] at h
    cases h
  | cons g control =>
    rw [hc] at h
    exact h.exchange (hkeeps.base g control hc h.height_le).2

theorem Dead.setUnreachable (h : Dead env b stack bases v.operands frames v.control)
    (hset : v.setUnreachable = .ok v') : Dead env b stack bases v'.operands frames v'.control := by
  obtain ⟨g, control, hc, rfl⟩ := FuncValidator.setUnreachable_cases hset
  rw [hc] at h
  refine Dead.unreachable (h.exchange ?_)
  rw [List.take_take, Nat.min_self]

/-- A frame is opened. -/
theorem Dead.opens {f : ControlStackFrame} {kind : FrameKind} {bt : BlockType}
    (h : Dead env b stack bases v.operands frames v.control)
    (hopens : FuncValidator.Opens env.resources v kind bt v')
    (hf : ∀ g : Frame, g.kind = kind → Placeholder stack.length f g) :
    Dead env b stack (stack :: bases) v'.operands (f :: frames) v'.control := by
  obtain ⟨ty, v1, -, h1, rfl⟩ := hopens
  exact .placeholder rfl (h.keeps (FuncValidator.popOperands_keeps h1)) rfl (hf _ rfl)

/-- What an operator that opens and closes no frame does. -/
theorem Dead.simple {op : Operator Q} {sig : Signature Q} (hop : op.isStructured = false)
    (h : Dead env b stack bases v.operands frames v.control)
    (hstep : FuncValidator.step env.resources sig v op = .ok v') :
    Dead env b stack bases v'.operands frames v'.control := by
  obtain ⟨v1, hkeeps, rfl | hset⟩ := FuncValidator.step_simple hop hstep
  · exact h.keeps hkeeps
  · exact (h.keeps hkeeps).setUnreachable hset

end Dead

end K23VM.Cranelift
