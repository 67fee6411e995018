import K23VM.Lib.Yields
import K23VM.Proofs.ControlStack
import K23VM.Proofs.OperandStack

/-!
# The translator and the validator in lockstep

What an operator that the validator accepts does to the translator: where code is reached it pops the
values of the operands and branches with them, and the stack and the frames stay those of the
validator.  It stops only where the environment does.
-/

namespace K23VM.Cranelift

open Wasmparser FunctionBuilder

variable {Q : Type}

namespace FuncTranslationState

variable {t : FuncTranslationState Q} {stack vals : List ℕ} {val : ℕ} {debug : Bool}

/-! ## The top of the stack -/

theorem infix_of_append {l l₁ l₂ : List ℕ} (h : l = l₁ ++ l₂) : l₂ <:+: l :=
  h ▸ (List.suffix_append l₁ l₂).isInfix

theorem wrappingSub_append (hlt : (stack ++ vals).length < 2 ^ 64) :
    wrappingSub (stack ++ vals).length vals.length = stack.length := by
  rw [List.length_append] at hlt ⊢
  unfold wrappingSub
  omega

theorem pop1_of_stack (h : t.stack = stack ++ [val]) : t.pop1 = .ok (val, { t with stack }) := by
  unfold pop1
  rw [h, List.getLast?_concat, List.dropLast_concat]
  rfl

theorem peek1_of_stack (h : t.stack = stack ++ [val]) : t.peek1 = .ok val := by
  unfold peek1
  rw [h, List.getLast?_concat]
  rfl

theorem ensureLengthIsAtLeast_of_stack (h : t.stack = stack ++ vals) :
    t.ensureLengthIsAtLeast debug vals.length = .ok () := by
  unfold ensureLengthIsAtLeast
  rw [h, List.length_append, decide_eq_true (Nat.le_add_left _ _), debugAssert_true]

theorem popn_of_stack (h : t.stack = stack ++ vals) (hlt : t.stack.length < 2 ^ 64) :
    t.popn debug vals.length = .ok { t with stack } := by
  unfold popn
  rw [ensureLengthIsAtLeast_of_stack h, h, wrappingSub_append (h ▸ hlt), List.take_left]
  rfl

theorem peekn_of_stack (h : t.stack = stack ++ vals) (hlt : t.stack.length < 2 ^ 64) :
    t.peekn debug vals.length = .ok vals := by
  have hle : stack.length ≤ (stack ++ vals).length := by
    rw [List.length_append]
    exact Nat.le_add_right _ _
  unfold peekn
  rw [ensureLengthIsAtLeast_of_stack h, h, wrappingSub_append (h ▸ hlt)]
  show (if stack.length ≤ (stack ++ vals).length then _ else _) = _
  rw [if_pos hle, List.drop_left]
  rfl

theorem frameAt_of_getElem? {depth : ℕ} {f : ControlStackFrame} (h : t.controlStack[depth]? = some f) :
    t.frameAt depth = .ok f := by
  unfold frameAt
  rw [h]
  rfl

theorem jumpWith_of_stack (t : FuncTranslationState Q) (debug : Bool) (dest : ℕ)
    (h : t.stack = stack ++ vals) (hlt : t.stack.length < 2 ^ 64) :
    t.jumpWith debug dest vals.length
      = .ok { t with stack, builder := t.builder.canonicaliseThenJump dest vals } := by
  unfold jumpWith
  rw [peekn_of_stack h hlt]
  exact popn_of_stack h hlt

end FuncTranslationState

/-! ## The relation -/

variable {env : TranslationEnvironment Q} {sig : Signature Q} {t t' : FuncTranslationState Q}
  {v v' : FuncValidator} {results : List ValType} {bases : List (List ℕ)}

/-- Types of values of operands, where a vector may have any lanes. -/
def TypesOf (env : TranslationEnvironment Q) (tys : List ValType) (types : List Ty) : Prop :=
  List.Forall₂ (fun vt (type : Ty) => env.valueType vt = .ok type.canonical) tys types

/-- The panic of a pop where there is no value. -/
def emptyStack : Fault := .panic "attempted to pop a value from an empty stack"

/-- A fault of what the translator asks of its environment for a valid operator.  That of a plain operator
is not one of its pops, and a call in tail position has no translation. -/
inductive EnvFault (env : TranslationEnvironment Q) (sig : Signature Q) (op : Operator Q)
    (e : Fault) : Prop
  | valueType {bt : BlockType} {fty : FuncType} {ty : ValType}
    (hop : op = .block bt ∨ op = .loop bt ∨ op = .if_ bt)
    (hblock : env.resources.blockTypes bt = some fty) (hty : ty ∈ fty.params ++ fty.results)
    (h : env.valueType ty = .error e)
  | callee {p : Q} {ty : FuncType} (hsig : sig p = some ty)
    (h : op.Calls p ∧ env.callee p = .error e ∨ op.CallsIndirect p ∧ env.indirectCallee p = .error e)
  | signature {p : Q} {ty : FuncType} {fty : WasmFuncType} (hsig : sig p = some ty)
    (hcallee : op.Calls p ∧ Callee.ty <$> env.callee p = .ok fty
      ∨ op.CallsIndirect p ∧ env.indirectCallee p = .ok fty)
    (h : wasmCallSignature env.pointerType fty = .error e)
  | tailCall {p : Q} (hop : op = .returnCall p ∨ op = .returnCallIndirect p)
    (h : e = .panic "not yet implemented")
  | indirectCall {p : Q} {ty : FuncType} (hop : op = .callIndirect p) (hsig : sig p = some ty)
    (h : env.checkIndirectCall p = .error e)
  | plain {p : Q} {ty : FuncType} {below types : List Ty} (hop : op = .plain p) (hsig : sig p = some ty)
    (htypes : TypesOf env ty.params types)
    (h : env.translatePlain p (below ++ types) = (.error e : Except Fault (Except Error PlainShape)))
    (hpop : e ≠ emptyStack)

/-- The locals and the types of the function, which no operator changes. -/
structure FunctionOk (env : TranslationEnvironment Q) (results : List ValType)
    (b : FunctionBuilder Q) (v : FuncValidator) : Prop where
  locals : ∀ (i : ℕ) (ty : ValType), v.locals[i]? = some ty →
    ∃ type, b.vars[i]? = some type ∧ env.valueType ty = .ok type
  returns : results.mapM env.valueType = .ok b.returns
  outermost : ∀ g, v.control.getLast? = some g → g.ty.results = results
  vmctx : b.HasVmctx env.pointerType

/-- The translator after an operator, and the validator, with the values below each frame.  At the end
both have no frames. -/
inductive Lockstep (env : TranslationEnvironment Q) (results : List ValType) (bases : List (List ℕ))
    (t : FuncTranslationState Q) (v : FuncValidator) : Prop
  | live (hreachable : t.reachable = true) (hpos : t.builder.position < t.builder.numBlocks)
    (hlive : Live env t.builder bases t.stack t.controlStack v)
  | dead (hreachable : t.reachable = false)
    (hdead : Dead env t.builder t.stack bases v.operands t.controlStack v.control)
  | done (hframes : t.controlStack = []) (hcontrol : v.control = [])
    (hoperands : v.operands = results.map some)
    (hstack : if t.reachable then t.builder.position < t.builder.numBlocks
        ∧ Holds env t.builder results t.stack else t.stack = [])

/-- From a state that the translator was in, as long as the stack fits in memory. -/
def Simulates (env : TranslationEnvironment Q) (results : List ValType) (bases : List (List ℕ))
    (t : FuncTranslationState Q) (v' : FuncValidator) (t' : FuncTranslationState Q) : Prop :=
  Builds t.stack t.builder t'.builder ∧ (t'.stack.length < 2 ^ 64 → Lockstep env results bases t' v')

/-- A state in which code is reached. -/
structure Reached (env : TranslationEnvironment Q) (results : List ValType) (bases : List (List ℕ))
    (t : FuncTranslationState Q) (v : FuncValidator) : Prop where
  types : TypesOk env
  function : FunctionOk env results t.builder v
  reachable : t.reachable = true
  pos : t.builder.position < t.builder.numBlocks
  fits : t.stack.length < 2 ^ 64
  live : Live env t.builder bases t.stack t.controlStack v

open FuncTranslationState TranslationEnvironment FuncValidator

/-! ## Operators that only touch the stack -/

section Simple

theorem simulates_nop (h : Reached env results bases t v) (hstep : step env.resources sig v .nop = .ok v') :
    Yields (EnvFault env sig .nop) (Simulates env results bases t v') (env.translateReachableOperator t .nop) := by
  cases hstep
  exact ⟨.refl _ _, fun _ => .live h.reachable h.pos h.live⟩

theorem simulates_drop (h : Reached env results bases t v)
    (hstep : step env.resources sig v .drop = .ok v') :
    Yields (EnvFault env sig .drop) (Simulates env results bases t v') (env.translateReachableOperator t .drop) := by
  unfold step at hstep
  obtain ⟨⟨ty, v1⟩, h1, hstep⟩ := bind_eq_ok.1 hstep
  cases hstep
  obtain ⟨stack, val, ty', hstack, -, -, hlive⟩ := h.live.popAny h1
  exact yields_bind_of_ok (pop1_of_stack hstack) ⟨.refl _ _, fun _ => .live h.reachable h.pos hlive⟩

theorem terminate_trap_builds {b : FunctionBuilder Q} {stack : List ℕ} (code : TrapCode) :
    Builds stack b (b.terminate (.trap code)) := by
  refine terminate_builds ⟨fun call hcall => ?_, fun args hargs => ?_⟩ fun args hargs => ?_
  · exact absurd hcall List.not_mem_nil
  · cases hargs
  · exact absurd hargs List.not_mem_nil

theorem simulates_unreachable (h : Reached env results bases t v)
    (hstep : step env.resources sig v .unreachable = .ok v') :
    Yields (EnvFault env sig .unreachable) (Simulates env results bases t v')
      (env.translateReachableOperator t .unreachable) := by
  have hbuilds : Builds t.stack t.builder (t.builder.terminate (.trap .unreachable)) :=
    terminate_trap_builds _
  have hdead := (h.live.dead []).setUnreachable hstep
  rw [List.append_nil] at hdead
  exact ⟨hbuilds, fun _ => .dead rfl (hdead.mono hbuilds.toExtends)⟩

theorem Live.selectType {b : FunctionBuilder Q} {stack : List ℕ} {frames : List ControlStackFrame}
    {ty ty' : Option ValType} (henv : TypesOk env) (h : Live env b bases stack frames v)
    (hselect : FuncValidator.selectType env.resources ty v = .ok (ty', v')) :
    ∃ stack' x y ty'', stack = stack' ++ [x, y] ∧ ty' = some ty'' ∧ Represents env b ty'' x
      ∧ Represents env b ty'' y ∧ Live env b bases stack' frames v' := by
  unfold FuncValidator.selectType at hselect
  cases ty with
  | some ty =>
    obtain ⟨v1, h1, hselect⟩ := bind_eq_ok.1 hselect
    obtain ⟨v2, h2, hselect⟩ := bind_eq_ok.1 hselect
    cases hselect
    obtain ⟨stack1, y, rfl, hy, hlive1⟩ := h.popOperand henv h1
    obtain ⟨stack2, x, rfl, hx, hlive2⟩ := hlive1.popOperand henv h2
    exact ⟨stack2, x, y, ty, List.append_assoc _ _ _, rfl, hx, hy, hlive2⟩
  | none =>
    obtain ⟨⟨ty1, v1⟩, h1, hselect⟩ := bind_eq_ok.1 hselect
    obtain ⟨⟨ty2, v2⟩, h2, hselect⟩ := bind_eq_ok.1 hselect
    obtain ⟨_, -, hselect⟩ := bind_eq_ok.1 hselect
    obtain ⟨stack1, y, tyY, rfl, rfl, hy, hlive1⟩ := h.popAny h1
    obtain ⟨stack2, x, tyX, rfl, rfl, hx, hlive2⟩ := hlive1.popAny h2
    obtain ⟨_, heq, hselect⟩ := bind_eq_ok.1 hselect
    cases hselect
    obtain rfl := of_decide_eq_true (checkThat_eq_ok.1 heq)
    exact ⟨stack2, x, y, tyY, List.append_assoc _ _ _, rfl, hx, hy, hlive2⟩

/-- Both values are cast to the type that vectors have where control flow joins. -/
theorem simulates_select {ty : Option ValType} (h : Reached env results bases t v)
    (hstep : step env.resources sig v (.select ty) = .ok v') :
    Yields (EnvFault env sig (.select ty)) (Simulates env results bases t v')
      (env.translateReachableOperator t (.select ty)) := by
  unfold step at hstep
  obtain ⟨v1, h1, hstep⟩ := bind_eq_ok.1 hstep
  obtain ⟨⟨ty', v2⟩, h2, hstep⟩ := bind_eq_ok.1 hstep
  cases hstep
  obtain ⟨stack1, cond, hstack1, -, hlive1⟩ := h.live.popOperand h.types h1
  obtain ⟨stack2, x, y, ty, rfl, rfl, hx, hy, hlive2⟩ := hlive1.selectType h.types h2
  have hpop : t.pop3 = .ok ((x, y, cond), { t with stack := stack2 }) := by
    unfold pop3
    rw [pop1_of_stack hstack1]
    have hy' : ({ t with stack := stack2 ++ [x, y] } : FuncTranslationState Q).pop1
        = .ok (y, { t with stack := stack2 ++ [x] }) :=
      pop1_of_stack (by rw [List.append_assoc]; rfl)
    show (pop1 _ >>= _) = _
    rw [hy']
    show (pop1 _ >>= _) = _
    rw [pop1_of_stack rfl]
    rfl
  refine yields_bind_of_ok hpop ?_
  dsimp only
  have hcastX := castLocal_castsTo hx.1 h.pos
  generalize t.builder.castLocal x = castX at hcastX ⊢
  obtain ⟨x', b1⟩ := castX
  have hy1 := hy.mono (hcastX.builds []).toExtends
  have hcastY := castLocal_castsTo hy1.1 (hcastX.pos_lt h.pos)
  dsimp only at hcastY hy1 ⊢
  generalize b1.castLocal y = castY at hcastY ⊢
  obtain ⟨y', b2⟩ := castY
  -- both have the type that stands for `ty`
  have hx2 := hcastX.typed.mono (hcastY.builds []).toExtends
  rw [Except.ok.inj (hx.2.symm.trans hy1.2)] at hx2
  have htype := (typed_singleton_iff.1 hx2).2
  have hselect : Builds t.stack b2 (b2.ins (b2.valueType x') (.select cond x' y')).2 := by
    refine ins_builds ⟨_, ((hx2.append hcastY.typed).mono (makeValue_extends _ _)).append ?_⟩ rfl
    rw [htype]
    exact makeValue_typed _ _
  have hbuilds := ((hcastX.builds t.stack).trans (hcastY.builds t.stack)).trans hselect
  refine ⟨hbuilds, fun _ => .live h.reachable (hcastY.pos_lt (hcastX.pos_lt h.pos))
    ((hlive2.mono hbuilds.toExtends).pushOperand (represents_of_typed h.types hy1.2 ?_))⟩
  rw [← htype]
  exact ins_typed _ _ _

theorem simulates_localGet {i : ℕ} (h : Reached env results bases t v)
    (hstep : step env.resources sig v (.localGet i) = .ok v') :
    Yields (EnvFault env sig (.localGet i)) (Simulates env results bases t v')
      (env.translateReachableOperator t (.localGet i)) := by
  unfold step at hstep
  dsimp only at hstep
  split at hstep
  · cases hstep
  next ty hty =>
    obtain ⟨_, -, hstep⟩ := bind_eq_ok.1 hstep
    cases hstep
    obtain ⟨type, hvar, htype⟩ := h.function.locals i ty hty
    have hbuilds : Builds t.stack t.builder (t.builder.ins type (.useVar i)).2 := useVar_builds hvar
    refine yields_bind_of_ok (useVar_eq hvar) ⟨hbuilds, fun _ => .live h.reachable h.pos ?_⟩
    exact (h.live.mono hbuilds.toExtends).pushOperand
      (represents_of_typed h.types htype (ins_typed _ _ _))

/-- A local is defined with a value of its type. -/
theorem defVar_of_represents (stack : List ℕ) {b : FunctionBuilder Q} {i val : ℕ} {ty : ValType}
    (hfunction : FunctionOk env results b v) (hty : v.locals[i]? = some ty)
    (hval : Represents env b ty val) (hpos : b.position < b.numBlocks) :
    ∃ b', (b.castLocal val).2.defVar i (b.castLocal val).1 = .ok b' ∧ Builds stack b b'
      ∧ b'.position < b'.numBlocks := by
  obtain ⟨type, hvar, htype⟩ := hfunction.locals i ty hty
  have hcast := castLocal_castsTo hval.1 hpos
  generalize b.castLocal val = cast at hcast ⊢
  obtain ⟨val', b1⟩ := cast
  obtain ⟨hlt, hcanonical⟩ := typed_singleton_iff.1 hcast.typed
  have hvar1 : b1.vars[i]? = some (b1.valueType val') := by
    rw [hcanonical, Except.ok.inj (hval.2.symm.trans htype)]
    exact (hcast.builds []).vars i type hvar
  exact ⟨_, defVar_eq hvar1, (hcast.builds stack).trans (defVar_builds hvar1 hlt), hcast.pos_lt hpos⟩

theorem simulates_localSet {i : ℕ} (h : Reached env results bases t v)
    (hstep : step env.resources sig v (.localSet i) = .ok v') :
    Yields (EnvFault env sig (.localSet i)) (Simulates env results bases t v')
      (env.translateReachableOperator t (.localSet i)) := by
  unfold step at hstep
  dsimp only at hstep
  split at hstep
  · cases hstep
  next ty hty =>
    obtain ⟨v1, h1, hstep⟩ := bind_eq_ok.1 hstep
    cases hstep
    obtain ⟨stack, val, hstack, hval, hlive⟩ := h.live.popOperand h.types h1
    obtain ⟨b', hdef, hbuilds, hpos⟩ := defVar_of_represents t.stack h.function hty hval h.pos
    refine yields_bind_of_ok (pop1_of_stack hstack) (yields_bind_of_ok hdef ?_)
    exact ⟨hbuilds, fun _ => .live h.reachable hpos ((hlive.mono hbuilds.toExtends).congr rfl rfl)⟩

theorem simulates_localTee {i : ℕ} (h : Reached env results bases t v)
    (hstep : step env.resources sig v (.localTee i) = .ok v') :
    Yields (EnvFault env sig (.localTee i)) (Simulates env results bases t v')
      (env.translateReachableOperator t (.localTee i)) := by
  unfold step at hstep
  dsimp only at hstep
  split at hstep
  · cases hstep
  next ty hty =>
    obtain ⟨v1, h1, hstep⟩ := bind_eq_ok.1 hstep
    cases hstep
    obtain ⟨stack, val, hstack, hval, hlive⟩ := h.live.popOperand h.types h1
    obtain ⟨b', hdef, hbuilds, hpos⟩ := defVar_of_represents t.stack h.function hty hval h.pos
    have hlive' := (hlive.pushOperand hval).mono hbuilds.toExtends
    rw [← hstack] at hlive'
    refine yields_bind_of_ok (peek1_of_stack hstack) (yields_bind_of_ok hdef ?_)
    exact ⟨hbuilds, fun _ => .live h.reachable hpos (hlive'.congr rfl rfl)⟩

theorem isNull_builds (b : FunctionBuilder Q) (stack : List ℕ) (val : ℕ) :
    Builds stack b (b.translateRefIsNull val).2 := ins_builds trivial rfl

theorem simulates_refIsNull (h : Reached env results bases t v)
    (hstep : step env.resources sig v .refIsNull = .ok v') :
    Yields (EnvFault env sig .refIsNull) (Simulates env results bases t v')
      (env.translateReachableOperator t .refIsNull) := by
  unfold step at hstep
  obtain ⟨⟨ty, v1⟩, h1, hstep⟩ := bind_eq_ok.1 hstep
  cases hstep
  obtain ⟨stack, val, ty', hstack, -, -, hlive⟩ := h.live.popRef h1
  have hbuilds := isNull_builds t.builder t.stack val
  refine yields_bind_of_ok (pop1_of_stack hstack) ⟨hbuilds, fun _ => .live h.reachable h.pos ?_⟩
  exact (hlive.mono hbuilds.toExtends).pushOperand (represents_of_typed h.types rfl (ins_typed _ _ _))

theorem simulates_refAsNonNull (h : Reached env results bases t v)
    (hstep : step env.resources sig v .refAsNonNull = .ok v') :
    Yields (EnvFault env sig .refAsNonNull) (Simulates env results bases t v')
      (env.translateReachableOperator t .refAsNonNull) := by
  unfold step at hstep
  obtain ⟨⟨ty, v1⟩, h1, hstep⟩ := bind_eq_ok.1 hstep
  cases hstep
  obtain ⟨stack, val, ty', hstack, rfl, hval, hlive⟩ := h.live.popRef h1
  have hbuilds := (isNull_builds t.builder t.stack val).trans
    (insert_builds (i := .trapnz (t.builder.translateRefIsNull val).1 .nullReference) trivial
      fun _ ha => absurd ha List.not_mem_nil)
  refine yields_bind_of_ok (pop1_of_stack hstack) ⟨hbuilds, fun _ => .live h.reachable h.pos ?_⟩
  exact (hlive.mono hbuilds.toExtends).pushOperand (hval.mono hbuilds.toExtends).nonNull

end Simple

/-! ## Branches -/

section Branches

theorem setUnreachable_dead {stack : List ℕ} {frames : List ControlStackFrame} {v1 : FuncValidator}
    {b : FunctionBuilder Q} (hlive : Live env b bases stack frames v1) (hset : v1.setUnreachable = .ok v') :
    Dead env b stack bases v'.operands frames v'.control := by
  have hdead := (hlive.dead []).setUnreachable hset
  rwa [List.append_nil] at hdead

theorem simulates_br {depth : ℕ} (h : Reached env results bases t v)
    (hstep : step env.resources sig v (.br depth) = .ok v') :
    Yields (EnvFault env sig (.br depth)) (Simulates env results bases t v')
      (env.translateReachableOperator t (.br depth)) := by
  unfold step at hstep
  obtain ⟨tys, hjump, hstep⟩ := bind_eq_ok.1 hstep
  obtain ⟨v1, h1, hset⟩ := bind_eq_ok.1 hstep
  obtain ⟨f, hf, harity, htakes⟩ := h.live.jump hjump
  obtain ⟨stack, vals, hstack, hvals, hlive⟩ := h.live.popOperands h.types h1
  have hbuilds : Builds t.stack t.builder (t.builder.canonicaliseThenJump f.brDestination vals) :=
    htakes.jump hvals h.pos (infix_of_append hstack)
  refine yields_bind_of_ok (frameAt_of_getElem? hf) ?_
  rw [harity, hvals.length]
  refine yields_bind_of_ok (jumpWith_of_stack (t.setBranchedTo depth) env.debug _ hstack h.fits)
    ⟨hbuilds, fun _ => .dead rfl ?_⟩
  exact (setUnreachable_dead (hlive.setBranchedTo depth) hset).mono hbuilds.toExtends

/-- A block is sealed and translation goes on in it. -/
def switchTo (b : FunctionBuilder Q) (block : ℕ) : FunctionBuilder Q :=
  (b.sealBlock block).switchToBlock block

theorem switchTo_builds {b b1 : FunctionBuilder Q} {stack : List ℕ} (block : ℕ)
    (h : Builds stack b b1) : Builds stack b (switchTo b1 block) :=
  (h.trans (sealBlock_builds b1 block)).trans (switchToBlock_builds _ block)

/-- A branch with values where the condition holds, and a new block without parameters for the code
that follows. -/
theorem brif_builds {b : FunctionBuilder Q} {dest : ℕ} {tys : List ValType} {vals stack : List ℕ}
    (cond : ℕ) (htakes : Takes env b dest tys) (hvals : Holds env b tys vals)
    (hpos : b.position < b.numBlocks) (hstack : vals <:+: stack) :
    Builds stack b
        (switchTo (b.createBlock.2.canonicaliseBrif cond dest vals b.numBlocks []) b.numBlocks)
      ∧ b.numBlocks < (b.createBlock.2.canonicaliseBrif cond dest vals b.numBlocks []).numBlocks := by
  have hext := createBlock_extends b
  have hnext := createBlock_bare b
  refine ⟨switchTo_builds _ ((createBlock_builds b).trans ((htakes.mono hext).brif cond hnext.takes
    (hvals.mono hext) .nil (hpos.trans_le hext.blocks) hstack List.nil_infix)), ?_⟩
  rw [canonicaliseBrif_numBlocks]
  exact hnext.1

/-- The same where the condition does not hold. -/
theorem brifElse_builds {b : FunctionBuilder Q} {dest : ℕ} {tys : List ValType} {vals stack : List ℕ}
    (cond : ℕ) (htakes : Takes env b dest tys) (hvals : Holds env b tys vals)
    (hpos : b.position < b.numBlocks) (hstack : vals <:+: stack) :
    Builds stack b
        (switchTo (b.createBlock.2.canonicaliseBrif cond b.numBlocks [] dest vals) b.numBlocks)
      ∧ b.numBlocks < (b.createBlock.2.canonicaliseBrif cond b.numBlocks [] dest vals).numBlocks := by
  have hext := createBlock_extends b
  have hnext := createBlock_bare b
  refine ⟨switchTo_builds _ ((createBlock_builds b).trans (hnext.takes.brif cond (htakes.mono hext)
    .nil (hvals.mono hext) (hpos.trans_le hext.blocks) List.nil_infix hstack)), ?_⟩
  rw [canonicaliseBrif_numBlocks]
  exact hnext.1

theorem translateBrIfArgs_of_stack (t : FuncTranslationState Q) (debug : Bool) {depth : ℕ}
    {f : ControlStackFrame} {stack vals : List ℕ} (hf : t.controlStack[depth]? = some f)
    (harity : f.brArity = vals.length) (hstack : t.stack = stack ++ vals)
    (hlt : t.stack.length < 2 ^ 64) :
    t.translateBrIfArgs debug depth = .ok ((f.brDestination, vals), t.setBranchedTo depth) := by
  unfold translateBrIfArgs
  rw [frameAt_of_getElem? hf]
  show (peekn debug (t.setBranchedTo depth) f.brArity >>= _) = _
  have hpeek : (t.setBranchedTo depth).peekn debug vals.length = .ok vals := peekn_of_stack hstack hlt
  rw [harity, hpeek]
  rfl

theorem fits_of_append {l l₁ l₂ : List ℕ} (h : l = l₁ ++ l₂) (hlt : l.length < 2 ^ 64) :
    l₁.length < 2 ^ 64 := by
  rw [h, List.length_append] at hlt
  exact (Nat.le_add_right _ _).trans_lt hlt

theorem simulates_brIf {depth : ℕ} (h : Reached env results bases t v)
    (hstep : step env.resources sig v (.brIf depth) = .ok v') :
    Yields (EnvFault env sig (.brIf depth)) (Simulates env results bases t v')
      (env.translateReachableOperator t (.brIf depth)) := by
  unfold step at hstep
  obtain ⟨v1, h1, hstep⟩ := bind_eq_ok.1 hstep
  obtain ⟨tys, hjump, hstep⟩ := bind_eq_ok.1 hstep
  obtain ⟨stack1, val, hstack1, -, hlive1⟩ := h.live.popOperand h.types h1
  obtain ⟨f, hf, harity, htakes⟩ := hlive1.jump hjump
  obtain ⟨stack2, vals, rfl, hvals, hlive2⟩ := hlive1.popPushLabelTypes h.types hstep
  have hargs := translateBrIfArgs_of_stack { t with stack := stack2 ++ vals } env.debug hf
    (harity.trans hvals.length) rfl (fits_of_append hstack1 h.fits)
  obtain ⟨hbuilds, hlt⟩ := brif_builds val htakes hvals h.pos
    ((infix_of_append rfl).trans (hstack1 ▸ (List.prefix_append _ _).isInfix))
  refine yields_bind_of_ok (pop1_of_stack hstack1) (yields_bind_of_ok hargs
    ⟨hbuilds, fun _ => .live h.reachable hlt ?_⟩)
  exact (hlive2.setBranchedTo depth).mono hbuilds.toExtends

theorem simulates_brOnNull {depth : ℕ} (h : Reached env results bases t v)
    (hstep : step env.resources sig v (.brOnNull depth) = .ok v') :
    Yields (EnvFault env sig (.brOnNull depth)) (Simulates env results bases t v')
      (env.translateReachableOperator t (.brOnNull depth)) := by
  unfold step at hstep
  obtain ⟨⟨ty, v1⟩, h1, hstep⟩ := bind_eq_ok.1 hstep
  obtain ⟨tys, hjump, hstep⟩ := bind_eq_ok.1 hstep
  obtain ⟨v2, h2, hstep⟩ := bind_eq_ok.1 hstep
  cases hstep
  obtain ⟨stack1, val, ty', hstack1, rfl, hval, hlive1⟩ := h.live.popRef h1
  obtain ⟨f, hf, harity, htakes⟩ := hlive1.jump hjump
  obtain ⟨stack2, vals, rfl, hvals, hlive2⟩ := hlive1.popPushLabelTypes h.types h2
  have hargs := translateBrIfArgs_of_stack { t with stack := stack2 ++ vals } env.debug hf
    (harity.trans hvals.length) rfl (fits_of_append hstack1 h.fits)
  have hnull := isNull_builds t.builder t.stack val
  obtain ⟨hbrif, hlt⟩ := brif_builds (t.builder.translateRefIsNull val).1
    (htakes.mono hnull.toExtends) (hvals.mono hnull.toExtends) h.pos
    ((infix_of_append rfl).trans (hstack1 ▸ (List.prefix_append _ _).isInfix))
  have hbuilds := hnull.trans hbrif
  refine yields_bind_of_ok (pop1_of_stack hstack1) (yields_bind_of_ok hargs
    ⟨hbuilds, fun _ => .live h.reachable hlt ?_⟩)
  exact ((hlive2.setBranchedTo depth).mono hbuilds.toExtends).pushOperand
    (hval.mono hbuilds.toExtends).nonNull

/-- The reference is popped after the branch, which takes it as its last value. -/
theorem simulates_brOnNonNull {depth : ℕ} (h : Reached env results bases t v)
    (hstep : step env.resources sig v (.brOnNonNull depth) = .ok v') :
    Yields (EnvFault env sig (.brOnNonNull depth)) (Simulates env results bases t v')
      (env.translateReachableOperator t (.brOnNonNull depth)) := by
  unfold step at hstep
  obtain ⟨tys, hjump, hstep⟩ := bind_eq_ok.1 hstep
  obtain ⟨⟨ty, v1⟩, h1, hstep⟩ := bind_eq_ok.1 hstep
  obtain ⟨stack1, val, ty', hstack1, rfl, hval, hlive1⟩ := h.live.popRef h1
  -- the last type of the label is a reference type that the reference has
  obtain ⟨tys', expected, rfl, hsub, hpop⟩ : ∃ tys' expected, tys = tys' ++ [.ref expected]
      ∧ env.resources.isSubtype (nonNull ty') (.ref expected) = true
      ∧ v1.popPushLabelTypes env.resources tys' = .ok v' := by
    dsimp only at hstep
    split at hstep
    next heq => cases heq
    next expected actual hlast heq =>
      obtain ⟨_, hsub, hpop⟩ := bind_eq_ok.1 hstep
      cases heq
      obtain ⟨tys', rfl⟩ := List.getLast?_eq_some_iff.1 hlast
      rw [List.dropLast_concat] at hpop
      exact ⟨tys', expected, rfl, checkThat_eq_ok.1 hsub, hpop⟩
    · cases hstep
  obtain ⟨f, hf, harity, htakes⟩ := h.live.jump hjump
  obtain ⟨stack2, vals, rfl, hvals, hlive2⟩ := hlive1.popPushLabelTypes h.types hpop
  have hvals' : Holds env t.builder (tys' ++ [.ref expected]) (vals ++ [val]) :=
    List.rel_append hvals (.cons (hval.nonNull.subtype h.types hsub) .nil)
  rw [List.append_assoc] at hstack1
  have hnull := isNull_builds t.builder t.stack val
  have hargs := translateBrIfArgs_of_stack
    { t with builder := (t.builder.translateRefIsNull val).2 } env.debug hf
    (harity.trans hvals'.length) hstack1 h.fits
  obtain ⟨hbrif, hlt⟩ := brifElse_builds (t.builder.translateRefIsNull val).1
    (htakes.mono hnull.toExtends) (hvals'.mono hnull.toExtends) h.pos (infix_of_append hstack1)
  have hbuilds := hnull.trans hbrif
  rw [← List.append_assoc] at hstack1
  refine yields_bind_of_ok (peek1_of_stack hstack1) (yields_bind_of_ok hargs
    (yields_bind_of_ok (pop1_of_stack hstack1)
      ⟨hbuilds, fun _ => .live h.reachable hlt ?_⟩))
  exact (hlive2.setBranchedTo depth).mono hbuilds.toExtends

theorem Live.outermost {b : FunctionBuilder Q} {stack : List ℕ} {frames : List ControlStackFrame}
    {g : Frame} (h : Live env b bases stack frames v) (hg : v.control.getLast? = some g) :
    ∃ f, frames.getLast? = some f ∧ FrameOk env b f g := by
  obtain ⟨_, _, _, hlayout⟩ := h
  rw [List.getLast?_eq_getElem?] at hg
  obtain ⟨f, hf, hframe⟩ := forall₂_getElem? hlayout.framesOk.flip hg
  refine ⟨f, ?_, hframe⟩
  rw [List.getLast?_eq_getElem?, List.Forall₂.length_eq hlayout.framesOk]
  exact hf

/-- Results on the stack are cast and returned. -/
theorem return_builds {b : FunctionBuilder Q} {stack vals : List ℕ}
    (hreturns : results.mapM env.valueType = .ok b.returns) (hvals : Holds env b results vals)
    (hpos : b.position < b.numBlocks) (hvalues : vals <:+: stack) :
    ∃ args b', b.bitcastWasmReturns vals = .ok (args, b')
      ∧ Builds stack b (b'.terminate (.return_ args)) := by
  have hcanonical := hvals.canonical hreturns
  have hcast := bitcastVectors_castsTo hcanonical hpos
  have hret := bitcastWasmReturns_canonical hcanonical
  generalize b.bitcastVectors vals b.returns = cast at hcast hret
  obtain ⟨args, b1⟩ := cast
  have hok : Terminator.Ok b1 (.return_ args) := by
    refine ⟨fun call hcall => absurd hcall List.not_mem_nil, fun args' hargs => ?_⟩
    cases hargs
    rw [(hcast.builds []).returns]
    exact hcast.typed
  refine ⟨args, b1, hret, (hcast.builds stack).trans (terminate_builds hok fun args' hargs => ?_)⟩
  rw [List.mem_singleton.1 hargs]
  exact hcast.fromStack hvalues

theorem simulates_return (h : Reached env results bases t v)
    (hstep : step env.resources sig v .return_ = .ok v') :
    Yields (EnvFault env sig .return_) (Simulates env results bases t v')
      (env.translateReachableOperator t .return_) := by
  unfold step at hstep
  dsimp only at hstep
  split at hstep
  · cases hstep
  next g hg =>
    obtain ⟨v1, h1, hset⟩ := bind_eq_ok.1 hstep
    obtain ⟨f, hf, hframe⟩ := h.live.outermost hg
    obtain ⟨stack, vals, hstack, hvals, hlive⟩ := h.live.popOperands h.types h1
    have hreturns := h.function.returns
    rw [← h.function.outermost g hg] at hreturns
    obtain ⟨args, b, hret, hbuilds⟩ := return_builds hreturns hvals h.pos (infix_of_append hstack)
    refine yields_bind_of_ok (unwrap_eq_ok.2 hf) ?_
    rw [hframe.numReturns, hvals.length]
    refine yields_bind_of_ok (peekn_of_stack hstack h.fits) (yields_bind_of_ok hret
      (yields_bind_of_ok (popn_of_stack hstack h.fits) ⟨hbuilds, fun _ => .dead rfl ?_⟩))
    exact (setUnreachable_dead hlive hset).mono hbuilds.toExtends

/-! ### Branch tables -/

/-- The values on top of the stack are those that a branch to the frame at a depth takes. -/
def BranchTo (env : TranslationEnvironment Q) (b : FunctionBuilder Q) (frames : List ControlStackFrame)
    (vals : List ℕ) (depth : ℕ) : Prop :=
  ∃ f tys, frames[depth]? = some f ∧ f.brArity = vals.length ∧ Takes env b f.brDestination tys
    ∧ Holds env b tys vals

theorem BranchTo.mono {b b' : FunctionBuilder Q} {frames : List ControlStackFrame} {vals : List ℕ}
    {depth : ℕ} (h : BranchTo env b frames vals depth) (hb : Extends b b') :
    BranchTo env b' frames vals depth := by
  obtain ⟨f, tys, hf, harity, htakes, hvals⟩ := h
  exact ⟨f, tys, hf, harity, htakes.mono hb, hvals.mono hb⟩

@[simp] theorem setBranchedToExit_brDestination (f : ControlStackFrame) :
    f.setBranchedToExit.brDestination = f.brDestination := by
  unfold ControlStackFrame.setBranchedToExit
  split_ifs <;> rfl

@[simp] theorem setBranchedToExit_brArity (f : ControlStackFrame) :
    f.setBranchedToExit.brArity = f.brArity := by
  unfold ControlStackFrame.setBranchedToExit
  split_ifs <;> rfl

theorem BranchTo.setBranchedTo {b : FunctionBuilder Q} {frames : List ControlStackFrame}
    {vals : List ℕ} {depth : ℕ} (h : BranchTo env b frames vals depth) (d : ℕ) :
    BranchTo env b (frames.modify d (·.setBranchedToExit)) vals depth := by
  obtain ⟨f, tys, hf, harity, htakes, hvals⟩ := h
  by_cases hd : d = depth
  · refine ⟨f.setBranchedToExit, tys, ?_, ?_, ?_, hvals⟩
    · rw [hd, List.getElem?_modify_eq, hf]
      rfl
    · rwa [setBranchedToExit_brArity]
    · rwa [setBranchedToExit_brDestination]
  · refine ⟨f, tys, ?_, harity, htakes, hvals⟩
    rw [List.getElem?_modify_ne _ _ hd, hf]

/-- Frames that differ from others in which are branched to. -/
structure Marks (env : TranslationEnvironment Q) (frames frames' : List ControlStackFrame) : Prop where
  live : ∀ {b : FunctionBuilder Q} {bases : List (List ℕ)} {stack : List ℕ} {v : FuncValidator},
    Live env b bases stack frames v → Live env b bases stack frames' v
  branchTo : ∀ {b : FunctionBuilder Q} {vals : List ℕ} {depth : ℕ},
    BranchTo env b frames vals depth → BranchTo env b frames' vals depth

theorem Marks.refl (env : TranslationEnvironment Q) (frames : List ControlStackFrame) :
    Marks env frames frames := ⟨id, id⟩

theorem Marks.trans {frames frames' frames'' : List ControlStackFrame} (h : Marks env frames frames')
    (h' : Marks env frames' frames'') : Marks env frames frames'' :=
  ⟨fun hl => h'.live (h.live hl), fun hb => h'.branchTo (h.branchTo hb)⟩

theorem setBranchedTo_marks (env : TranslationEnvironment Q) (frames : List ControlStackFrame)
    (d : ℕ) : Marks env frames (frames.modify d (·.setBranchedToExit)) :=
  ⟨fun hl => hl.setBranchedTo d, fun hb => hb.setBranchedTo d⟩

/-- The targets of a branch table without arguments take none. -/
theorem brTableTargets_spec {b : FunctionBuilder Q} : ∀ (depths : List ℕ) (t : FuncTranslationState Q),
    (∀ d ∈ depths, BranchTo env b t.controlStack [] d) →
    ∃ blocks frames, t.brTableTargets depths = .ok (blocks, { t with controlStack := frames })
      ∧ Marks env t.controlStack frames ∧ ∀ block ∈ blocks, Takes env b block []
  | [], t, _ => ⟨[], t.controlStack, rfl, .refl _ _, fun _ h => absurd h List.not_mem_nil⟩
  | d :: depths, t, h => by
    obtain ⟨f, tys, hf, -, htakes, hnil⟩ := h d List.mem_cons_self
    cases hnil
    have hmarks := setBranchedTo_marks env t.controlStack d
    obtain ⟨blocks, frames, hblocks, hmarks', htargets⟩ := brTableTargets_spec depths
      (t.setBranchedTo d) fun d' hd' => hmarks.branchTo (h d' (List.mem_cons_of_mem _ hd'))
    refine ⟨f.brDestination :: blocks, frames, ?_, hmarks.trans hmarks', ?_⟩
    · unfold brTableTargets
      rw [frameAt_of_getElem? hf]
      show (brTableTargets _ _ >>= _) = _
      rw [hblocks]
      rfl
    · intro block hblock
      rcases List.mem_cons.1 hblock with rfl | hblock
      · exact htakes
      · exact htargets block hblock

/-- The blocks on the edges of a branch table have no parameters. -/
theorem brTableBlocks_spec (stack : List ℕ) :
    ∀ (depths : List ℕ) (b : FunctionBuilder Q) (seen : List (ℕ × ℕ)), (∀ p ∈ seen, Bare b p.2) →
      ∃ blocks seen' b', brTableBlocks b seen depths = (blocks, seen', b') ∧ Builds stack b b'
        ∧ b'.position = b.position ∧ blocks.length = depths.length ∧ (∀ block ∈ blocks, Bare b' block)
        ∧ (∀ p ∈ seen', Bare b' p.2) ∧ ∀ p ∈ seen', p ∈ seen ∨ p.1 ∈ depths
  | [], b, seen, hseen => ⟨[], seen, b, rfl, .refl _ _, rfl, rfl, fun _ h => absurd h List.not_mem_nil,
      hseen, fun _ hp => .inl hp⟩
  | d :: depths, b, seen, hseen => by
    unfold brTableBlocks
    cases hlookup : seen.lookup d with
    | some block =>
      obtain ⟨blocks, seen', b', hb', hbuilds, hpos, hlen, hblocks, hseen', hmem⟩ :=
        brTableBlocks_spec stack depths b seen hseen
      have hblock : Bare b block := by
        obtain ⟨l₁, l₂, hl, -⟩ := List.lookup_eq_some_iff.1 hlookup
        exact hseen (d, block) (hl ▸ List.mem_append_right l₁ List.mem_cons_self)
      refine ⟨block :: blocks, seen', b', ?_, hbuilds, hpos, congrArg (· + 1) hlen, ?_, hseen', ?_⟩
      · dsimp only
        rw [hb']
      · exact List.forall_mem_cons.2 ⟨hblock.mono hbuilds.toExtends, hblocks⟩
      · exact fun p hp => (hmem p hp).imp_right (List.mem_cons_of_mem _)
    | none =>
      have hnew := createBlock_bare b
      have hext := createBlock_extends b
      obtain ⟨blocks, seen', b', hb', hbuilds, hpos, hlen, hblocks, hseen', hmem⟩ :=
        brTableBlocks_spec stack depths b.createBlock.2 (seen ++ [(d, b.numBlocks)]) fun p hp => by
          rcases List.mem_append.1 hp with hp | hp
          · exact (hseen p hp).mono hext
          · rw [List.mem_singleton.1 hp]
            exact hnew
      refine ⟨b.numBlocks :: blocks, seen', b', ?_, (createBlock_builds b).trans hbuilds, hpos,
        congrArg (· + 1) hlen, ?_, hseen', fun p hp => ?_⟩
      · dsimp only
        exact congrArg (fun x : List ℕ × List (ℕ × ℕ) × FunctionBuilder Q =>
          (b.numBlocks :: x.1, x.2.1, x.2.2)) hb'
      · exact List.forall_mem_cons.2 ⟨hnew.mono hbuilds.toExtends, hblocks⟩
      · rcases hmem p hp with hp | hp
        · rcases List.mem_append.1 hp with hp | hp
          · exact .inl hp
          · rw [List.mem_singleton.1 hp]
            exact .inr List.mem_cons_self
        · exact .inr (List.mem_cons_of_mem _ hp)

/-- The blocks on the edges jump on with the values. -/
theorem brTableJumps_spec (env : TranslationEnvironment Q) (debug : Bool) {stack vals : List ℕ} :
    ∀ (dests : List (ℕ × ℕ)) (t : FuncTranslationState Q), t.stack = stack ++ vals →
      t.stack.length < 2 ^ 64 → (∀ p ∈ dests, Bare t.builder p.2) →
      (∀ p ∈ dests, BranchTo env t.builder t.controlStack vals p.1) →
      ∃ frames b, t.brTableJumps debug vals.length dests
          = .ok { t with controlStack := frames, builder := b }
        ∧ Marks env t.controlStack frames ∧ Builds t.stack t.builder b
  | [], t, _, _, _, _ => ⟨t.controlStack, t.builder, rfl, .refl _ _, .refl _ _⟩
  | (d, block) :: dests, t, hstack, hlt, hbare, hto => by
    obtain ⟨f, tys, hf, -, htakes, hvals⟩ := hto _ List.mem_cons_self
    have hblock := hbare _ List.mem_cons_self
    have hmarks := setBranchedTo_marks env t.controlStack d
    have hswitch : Builds t.stack t.builder ((t.builder.switchToBlock block).sealBlock block) :=
      (switchToBlock_builds _ _).trans (sealBlock_builds _ _)
    have hbuilds := hswitch.trans ((htakes.mono hswitch.toExtends).jump
      (hvals.mono hswitch.toExtends) hblock.1 (infix_of_append hstack))
    obtain ⟨frames, b, hjumps, hmarks', hbuilds'⟩ := brTableJumps_spec env debug dests
      { t.setBranchedTo d with
        builder := ((t.builder.switchToBlock block).sealBlock block).canonicaliseThenJump
          f.brDestination vals }
      hstack hlt (fun p hp => (hbare p (List.mem_cons_of_mem _ hp)).mono hbuilds.toExtends)
      fun p hp => (hmarks.branchTo (hto p (List.mem_cons_of_mem _ hp))).mono hbuilds.toExtends
    refine ⟨frames, b, ?_, hmarks.trans hmarks', hbuilds.trans hbuilds'⟩
    unfold brTableJumps
    have hframe : ({ t with builder := (t.builder.switchToBlock block).sealBlock block }
        : FuncTranslationState Q).frameAt d = .ok f := frameAt_of_getElem? hf
    have hpeek : (({ t with builder := (t.builder.switchToBlock block).sealBlock block }
        : FuncTranslationState Q).setBranchedTo d).peekn debug vals.length = .ok vals :=
      peekn_of_stack hstack hlt
    dsimp only
    rw [hframe]
    show (peekn _ _ _ >>= _) = _
    rw [hpeek]
    exact hjumps

/-- The edges of a branch table have no arguments. -/
theorem brTable_builds (env : TranslationEnvironment Q) {b : FunctionBuilder Q}
    {stack targets : List ℕ} {default : ℕ} (val : ℕ)
    (htargets : ∀ block ∈ targets, Takes env b block []) (hdefault : Takes env b default []) :
    Builds stack b (b.terminate (.brTable val targets default)) := by
  have hedge : ∀ block, Takes env b block [] → b.EdgeOk ⟨block, []⟩ := by
    rintro block ⟨hlt, types, htypes, htyped⟩
    cases htypes
    exact ⟨hlt, [], typed_nil, htyped⟩
  refine terminate_builds ⟨fun call hcall => ?_, fun args hargs => ?_⟩ fun args hargs => ?_
  · obtain ⟨block, hblock, rfl⟩ := List.mem_map.1 hcall
    rcases List.mem_append.1 hblock with hblock | hblock
    · exact hedge block (htargets block hblock)
    · rw [List.mem_singleton.1 hblock]
      exact hedge default hdefault
  · cases hargs
  · obtain ⟨call, hcall, rfl⟩ := List.mem_map.1 hargs
    obtain ⟨block, -, rfl⟩ := List.mem_map.1 hcall
    exact fromStack_nil

theorem foldl_min_mem (depths : List ℕ) : ∀ d : ℕ,
    depths.foldl (fun m depth => if depth < m then depth else m) d ∈ d :: depths := by
  induction depths with
  | nil => exact fun d => List.mem_cons_self
  | cons depth depths ih =>
    intro d
    rw [List.foldl_cons]
    rcases List.mem_cons.1 (ih (if depth < d then depth else d)) with h | h
    · rw [h]
      split_ifs
      · exact List.mem_cons_of_mem _ List.mem_cons_self
      · exact List.mem_cons_self
    · exact List.mem_cons_of_mem _ (List.mem_cons_of_mem _ h)

/-- The labels of a branch table that is valid take the values on top of the stack. -/
theorem Live.checkBrTable {b : FunctionBuilder Q} {stack vals : List ℕ}
    {frames : List ControlStackFrame} (henv : TypesOk env) (h : Live env b bases (stack ++ vals) frames v) :
    ∀ {depths : List ℕ}, FuncValidator.checkBrTable env.resources v vals.length depths = .ok () →
      ∀ d ∈ depths, BranchTo env b frames vals d
  | [], _, d, hd => absurd hd List.not_mem_nil
  | depth :: depths, hcheck, d, hd => by
    unfold FuncValidator.checkBrTable at hcheck
    obtain ⟨tys, hjump, hcheck⟩ := bind_eq_ok.1 hcheck
    obtain ⟨_, hlen, hcheck⟩ := bind_eq_ok.1 hcheck
    obtain ⟨v1, h1, hcheck⟩ := bind_eq_ok.1 hcheck
    rcases List.mem_cons.1 hd with rfl | hd
    · have hlen := of_decide_eq_true (checkThat_eq_ok.1 hlen)
      obtain ⟨f, hf, harity, htakes⟩ := h.jump hjump
      obtain ⟨stack', vals', hstack, hvals, -⟩ := h.popOperands henv h1
      obtain ⟨-, rfl⟩ := List.append_inj' hstack (hlen.symm.trans hvals.length)
      exact ⟨f, tys, hf, harity.trans hlen, htakes, hvals⟩
    · exact h.checkBrTable henv hcheck d hd

theorem simulates_brTable {depths : List ℕ} {default : ℕ} (h : Reached env results bases t v)
    (hstep : step env.resources sig v (.brTable depths default) = .ok v') :
    Yields (EnvFault env sig (.brTable depths default)) (Simulates env results bases t v')
      (env.translateReachableOperator t (.brTable depths default)) := by
  unfold step at hstep
  obtain ⟨v1, h1, hstep⟩ := bind_eq_ok.1 hstep
  obtain ⟨tys, hjump, hstep⟩ := bind_eq_ok.1 hstep
  obtain ⟨_, hcheck, hstep⟩ := bind_eq_ok.1 hstep
  obtain ⟨v2, h2, hset⟩ := bind_eq_ok.1 hstep
  obtain ⟨stack1, val, hstack1, -, hlive1⟩ := h.live.popOperand h.types h1
  obtain ⟨f, hf, harity, htakes⟩ := hlive1.jump hjump
  obtain ⟨stack, vals, rfl, hvals, hlive2⟩ := hlive1.popOperands h.types h2
  rw [hvals.length] at hcheck harity
  have hfits := fits_of_append hstack1 h.fits
  have hvalues : stack ++ vals <:+: t.stack := hstack1 ▸ (List.prefix_append _ _).isInfix
  have hto : ∀ d ∈ default :: depths, BranchTo env t.builder t.controlStack vals d :=
    List.forall_mem_cons.2 ⟨⟨f, tys, hf, harity, htakes, hvals⟩,
      hlive1.checkBrTable h.types hcheck⟩
  obtain ⟨fMin, -, hfMin, hmin, -, -⟩ := hto _ (foldl_min_mem depths default)
  have hpop := pop1_of_stack hstack1
  refine yields_bind_of_ok (frameAt_of_getElem? hfMin) (yields_bind_of_ok hpop ?_)
  dsimp only
  rw [hmin]
  split_ifs with hzero
  · -- no label takes values
    obtain rfl := List.length_eq_zero_iff.1 hzero
    obtain ⟨blocks, frames, htargets, hmarks, hblocks⟩ := brTableTargets_spec depths
      { t with stack := stack ++ [] } fun d hd => hto d (List.mem_cons_of_mem _ hd)
    obtain ⟨fDefault, tysDefault, hfDefault, -, htakesDefault, hnil⟩ :=
      hmarks.branchTo (hto default List.mem_cons_self)
    cases hnil
    have hbuilds : Builds t.stack t.builder
        (t.builder.terminate (.brTable val blocks fDefault.brDestination)) :=
      brTable_builds env val hblocks htakesDefault
    refine yields_bind_of_ok htargets (yields_bind_of_ok (frameAt_of_getElem? hfDefault)
      ⟨hbuilds, fun _ => .dead rfl ?_⟩)
    rw [List.append_nil]
    exact (setUnreachable_dead ((hmarks.live hlive2).setBranchedTo default) hset).mono
      hbuilds.toExtends
  · -- the values are passed on from a block on each edge
    obtain ⟨blocks, seen, b1, hb1, hbuilds1, hpos1, -, hblocks, hseen, hmem⟩ :=
      brTableBlocks_spec t.stack depths t.builder [] fun _ hp => absurd hp List.not_mem_nil
    obtain ⟨defaults, dests, b2, hb2, hbuilds2, hpos2, hlen2, hdefaults, hdests, hmem2⟩ :=
      brTableBlocks_spec t.stack [default] b1 seen hseen
    obtain ⟨defaultBlock, rfl⟩ := List.length_eq_one_iff.1 hlen2
    rw [hb1]
    dsimp only
    rw [hb2]
    dsimp only [List.headD]
    have htable : Builds t.stack b2 (b2.terminate (.brTable val blocks defaultBlock)) :=
      brTable_builds env val
        (fun block hblock => ((hblocks block hblock).mono hbuilds2.toExtends).takes)
        (hdefaults defaultBlock (List.mem_singleton_self _)).takes
    have hbuilds := (hbuilds1.trans hbuilds2).trans htable
    obtain ⟨frames, b, hjumps, hmarks, hbuilds'⟩ := brTableJumps_spec env env.debug dests
      { t with
        stack := stack ++ vals
        builder := b2.terminate (.brTable val blocks defaultBlock) } rfl hfits
      (fun p hp => (hdests p hp).mono htable.toExtends) fun p hp => by
        refine (hto p.1 ?_).mono hbuilds.toExtends
        rcases hmem2 p hp with hp | hp
        · rcases hmem p hp with hp | hp
          · exact absurd hp List.not_mem_nil
          · exact List.mem_cons_of_mem _ hp
        · rw [List.mem_singleton.1 hp]
          exact List.mem_cons_self
    have hbuilds'' := hbuilds.trans (hbuilds'.within hvalues)
    refine yields_bind_of_ok hjumps (yields_bind_of_ok (popn_of_stack rfl hfits)
      ⟨hbuilds'', fun _ => .dead rfl ?_⟩)
    exact (setUnreachable_dead (hmarks.live hlive2) hset).mono hbuilds''.toExtends

end Branches

/-! ## Calls and plain operators -/

/-- A plain operator takes its operands and gives values of the types of its results.  Where the code
behind it is not reached it may leave some of them. -/
def PlainShape.Fits (env : TranslationEnvironment Q) (ty : FuncType) (shape : PlainShape) : Prop :=
  shape.pops ≤ ty.params.length ∧ (shape.reachable = true → shape.pops = ty.params.length
    ∧ TypesOf env ty.results shape.results)

/-- What the environment does for a plain operator and a call is what the validator takes it for: a plain
operator fits its signature and pops no more than it has, and what a call calls has the signature, with the
index into the table last. -/
def OperatorOk (env : TranslationEnvironment Q) (sig : Signature Q) : Operator Q → Prop
  | .plain p => ∀ ty below types, sig p = some ty → TypesOf env ty.params types →
    Fallible.Yields (· ≠ emptyStack) (PlainShape.Fits env ty) (env.translatePlain p (below ++ types))
  | .call p | .returnCall p => ∀ ty callee, sig p = some ty → env.callee p = .ok callee →
    env.types.convertFuncType ty = .ok callee.ty
  | .callIndirect p | .returnCallIndirect p => ∀ ty fty, sig p = some ty → env.indirectCallee p = .ok fty →
    ∃ params index, ty.params = params ++ [index]
      ∧ env.types.convertFuncType ⟨params, ty.results⟩ = .ok fty
  | _ => True

section Calls

theorem valueType_convert {vt : ValType} {ty : WasmValType} {type : Ty}
    (hconvert : env.types.convertValType vt = .ok ty)
    (htype : Cranelift.valueType env.pointerType ty = .ok type) : env.valueType vt = .ok type := by
  cases vt with
  | ref rt =>
    obtain ⟨rt', hrt, hconvert⟩ := bind_eq_ok.1 hconvert
    cases hconvert
    obtain ⟨hty, hhty, hrt⟩ := bind_eq_ok.1 hrt
    cases hrt
    exact bind_eq_ok.2 ⟨hty, hhty, htype⟩
  | _ =>
    cases hconvert
    exact htype

/-- The signature in the code generator's language stands for the function type. -/
theorem wasmCallSignature_cases {ty : FuncType} {fty : WasmFuncType} {signature : IrSignature}
    (hconvert : env.types.convertFuncType ty = .ok fty)
    (hsig : wasmCallSignature env.pointerType fty = .ok signature) :
    signature.params = env.pointerType :: env.pointerType :: signature.wasmParams
      ∧ ty.params.mapM env.valueType = .ok signature.wasmParams
      ∧ ty.results.mapM env.valueType = .ok signature.returns := by
  obtain ⟨params, hparams, hconvert⟩ := bind_eq_ok.1 hconvert
  obtain ⟨results, hresults, hconvert⟩ := bind_eq_ok.1 hconvert
  cases hconvert
  obtain ⟨params', hparams', hsig⟩ := bind_eq_ok.1 hsig
  obtain ⟨results', hresults', hsig⟩ := bind_eq_ok.1 hsig
  cases hsig
  exact ⟨rfl, mapM_comp hparams hparams' fun _ _ _ _ => valueType_convert,
    mapM_comp hresults hresults' fun _ _ _ _ => valueType_convert⟩

/-- The arguments of a call pass the checks of its signature, and are cast. -/
theorem bitcastWasmParams_of_holds {b : FunctionBuilder Q} {ty : FuncType} {fty : WasmFuncType}
    {signature : IrSignature} {vals : List ℕ} (hconvert : env.types.convertFuncType ty = .ok fty)
    (hsig : wasmCallSignature env.pointerType fty = .ok signature) (hvals : Holds env b ty.params vals) :
    signature.wasmParams.length = vals.length
      ∧ b.bitcastWasmParams signature vals = .ok (b.bitcastVectors vals signature.wasmParams) := by
  obtain ⟨-, htypes, -⟩ := wasmCallSignature_cases hconvert hsig
  refine ⟨?_, bitcastWasmParams_canonical (hvals.canonical htypes)⟩
  rw [← hvals.length]
  exact mapM_ok_length htypes

/-- The arguments of a call are cast, and the results take their place. -/
theorem callInst_of_holds (p : Q) (ownVmctx : Bool) {b : FunctionBuilder Q} {ty : FuncType}
    {fty : WasmFuncType} {signature : IrSignature} {vals stack : List ℕ} (henv : TypesOk env)
    (hvmctx : b.HasVmctx env.pointerType) (hpos : b.position < b.numBlocks)
    (hconvert : env.types.convertFuncType ty = .ok fty)
    (hsig : wasmCallSignature env.pointerType fty = .ok signature)
    (hvals : Holds env b ty.params vals) (hstack : vals <:+: stack) :
    signature.wasmParams.length = vals.length ∧
    ∃ args b1 values b2, b.bitcastWasmParams signature vals = .ok (args, b1)
      ∧ env.callInst b1 p signature ownVmctx args = .ok (values, b2) ∧ Builds stack b b1
      ∧ Builds stack b b2 ∧ Holds env b2 ty.results values ∧ b2.position < b2.numBlocks := by
  obtain ⟨hparams, htypes, hresults⟩ := wasmCallSignature_cases hconvert hsig
  obtain ⟨hlen, hcheck⟩ := bitcastWasmParams_of_holds hconvert hsig hvals
  refine ⟨hlen, ?_⟩
  have hcast := bitcastVectors_castsTo (hvals.canonical htypes) hpos
  generalize b.bitcastVectors vals signature.wasmParams = cast at hcast hcheck
  obtain ⟨args, b1⟩ := cast
  obtain ⟨values, b2, hcall, hbuilds, hvalues, hpos2, hnum2⟩ := callInst_spec env (p := p)
    (hvmctx.mono (hcast.builds []).toExtends) hcast.typed hparams (hcast.fromStack hstack)
  refine ⟨args, b1, values, b2, hcheck, hcall, hcast.builds stack, (hcast.builds stack).trans hbuilds,
    holds_of_typed henv hresults hvalues, ?_⟩
  rw [hpos2, hnum2]
  exact hcast.pos_lt hpos

/-- The operands of a call through a table are its arguments and the index. -/
theorem holds_indirect {p : Q} {b : FunctionBuilder Q} {ty : FuncType} {fty : WasmFuncType}
    {vals : List ℕ} (hok : OperatorOk env sig (.callIndirect p)) (hty : sig p = some ty)
    (hfty : env.indirectCallee p = .ok fty) (hvals : Holds env b ty.params vals) :
    ∃ params args index, vals = args ++ [index] ∧ Holds env b params args
      ∧ env.types.convertFuncType ⟨params, ty.results⟩ = .ok fty := by
  obtain ⟨params, index, hparams, hconvert⟩ := hok ty fty hty hfty
  rw [hparams] at hvals
  obtain ⟨args, indices, rfl, hargs, hindex⟩ := forall₂_append_left hvals
  obtain - | ⟨-, hnil⟩ := hindex
  cases hnil
  exact ⟨params, args, _, rfl, hargs, hconvert⟩

theorem simulates_call {p : Q} (h : Reached env results bases t v) (hok : OperatorOk env sig (.call p))
    (hstep : step env.resources sig v (.call p) = .ok v') :
    Yields (EnvFault env sig (.call p)) (Simulates env results bases t v')
      (env.translateReachableOperator t (.call p)) := by
  unfold step at hstep
  dsimp only at hstep
  split at hstep
  · cases hstep
  next ty hty =>
    obtain ⟨v1, h1, hstep⟩ := bind_eq_ok.1 hstep
    cases hstep
    obtain ⟨stack, vals, hstack, hvals, hlive⟩ := h.live.popOperands h.types h1
    refine yields_bind (fun e he => .callee hty (.inl ⟨.inl rfl, he⟩)) fun callee hcallee => ?_
    have hfty : Callee.ty <$> env.callee p = .ok callee.ty := by
      rw [hcallee]
      rfl
    refine yields_bind (fun e he => .signature hty (.inl ⟨.inl rfl, hfty⟩) he) fun signature hsig => ?_
    obtain ⟨hlen, args, b1, values, b2, hcast, hcall, -, hbuilds, hvalues, hpos⟩ :=
      callInst_of_holds p callee.ownVmctx h.types h.function.vmctx h.pos (hok ty callee hty hcallee)
        hsig hvals (infix_of_append hstack)
    dsimp only
    rw [hlen]
    have hpopn : ({ t with builder := b2 } : FuncTranslationState Q).popn env.debug vals.length
        = .ok { t with stack, builder := b2 } := popn_of_stack hstack h.fits
    refine yields_bind_of_ok (peekn_of_stack hstack h.fits) (yields_bind_of_ok hcast
      (yields_bind_of_ok hcall (yields_bind_of_ok hpopn ⟨hbuilds, fun _ =>
        .live h.reachable hpos ((hlive.mono hbuilds.toExtends).pushOperands hvalues)⟩)))

/-- Where the call is known to end in a trap the arguments stay on the stack. -/
theorem simulates_callIndirect {p : Q} (h : Reached env results bases t v)
    (hok : OperatorOk env sig (.callIndirect p))
    (hstep : step env.resources sig v (.callIndirect p) = .ok v') :
    Yields (EnvFault env sig (.callIndirect p)) (Simulates env results bases t v')
      (env.translateReachableOperator t (.callIndirect p)) := by
  unfold step at hstep
  dsimp only at hstep
  split at hstep
  · cases hstep
  next ty hty =>
    obtain ⟨v1, h1, hstep⟩ := bind_eq_ok.1 hstep
    cases hstep
    obtain ⟨stack, _, hstack, hoperands, hlive⟩ := h.live.popOperands h.types h1
    refine yields_bind (fun e he => .callee hty (.inr ⟨.inl rfl, he⟩)) fun fty hfty => ?_
    refine yields_bind (fun e he => .signature hty (.inr ⟨.inl rfl, hfty⟩) he) fun signature hsig => ?_
    obtain ⟨params, vals, index, rfl, hvals, hconvert⟩ := holds_indirect hok hty hfty hoperands
    rw [← List.append_assoc] at hstack
    have hvalues : vals <:+: t.stack :=
      (infix_of_append rfl).trans (hstack ▸ (List.prefix_append _ _).isInfix)
    have hfits := fits_of_append hstack h.fits
    obtain ⟨hlen, args, b1, values, b2, hcast, hcall, hbuilds1, hbuilds, hvalues, hpos⟩ :=
      callInst_of_holds p false h.types h.function.vmctx h.pos hconvert hsig hvals hvalues
    have hpeek : ({ t with stack := stack ++ vals } : FuncTranslationState Q).peekn env.debug
        vals.length = .ok vals := peekn_of_stack rfl hfits
    dsimp only
    rw [hlen]
    refine yields_bind_of_ok (pop1_of_stack hstack) (yields_bind_of_ok hpeek (yields_bind_of_ok hcast
      (yields_bind (fun e he => .indirectCall rfl hty he) fun check hcheck => ?_)))
    cases check with
    | some code =>
      have hbuilds' := hbuilds1.trans (terminate_trap_builds code)
      refine ⟨hbuilds', fun _ => .dead rfl (Dead.mono ?_ hbuilds'.toExtends)⟩
      have hdead : Dead env t.builder (stack ++ vals) _ _ _ _ := hlive.dead vals
      exact hdead.keeps (pushOperands_keeps v1 ty.results)
    | none =>
      have hpopn : ({ t with stack := stack ++ vals, builder := b2 } : FuncTranslationState Q).popn
          env.debug vals.length = .ok { t with stack, builder := b2 } := popn_of_stack rfl hfits
      exact yields_bind_of_ok hcall (yields_bind_of_ok hpopn ⟨hbuilds, fun _ =>
        .live h.reachable hpos ((hlive.mono hbuilds.toExtends).pushOperands hvalues)⟩)

/-! ### In tail position -/

/-- The operands of a call in tail position are there, and then it has no translation. -/
theorem returnCall_faults {p : Q} (h : Reached env results bases t v)
    (hok : OperatorOk env sig (.returnCall p))
    (hstep : step env.resources sig v (.returnCall p) = .ok v') :
    Yields (EnvFault env sig (.returnCall p)) (fun _ => False)
      (env.translateReachableOperator t (.returnCall p)) := by
  unfold step at hstep
  dsimp only at hstep
  split at hstep
  · cases hstep
  next ty hty =>
    obtain ⟨_, -, hstep⟩ := bind_eq_ok.1 hstep
    obtain ⟨v1, h1, -⟩ := bind_eq_ok.1 hstep
    obtain ⟨stack, vals, hstack, hvals, -⟩ := h.live.popOperands h.types h1
    refine yields_bind (fun e he => .callee hty (.inl ⟨.inr rfl, he⟩)) fun callee hcallee => ?_
    have hfty : Callee.ty <$> env.callee p = .ok callee.ty := by
      rw [hcallee]
      rfl
    refine yields_bind (fun e he => .signature hty (.inl ⟨.inr rfl, hfty⟩) he) fun signature hsig => ?_
    obtain ⟨hlen, hcast⟩ := bitcastWasmParams_of_holds (hok ty callee hty hcallee) hsig hvals
    dsimp only
    rw [hlen]
    refine yields_bind_of_ok (peekn_of_stack hstack h.fits) (yields_bind_of_ok hcast ?_)
    exact yields_bind (fun e he => .tailCall (.inl rfl) (Except.error.inj he).symm) fun _ hb => nomatch hb

theorem returnCallIndirect_faults {p : Q} (h : Reached env results bases t v)
    (hok : OperatorOk env sig (.returnCallIndirect p))
    (hstep : step env.resources sig v (.returnCallIndirect p) = .ok v') :
    Yields (EnvFault env sig (.returnCallIndirect p)) (fun _ => False)
      (env.translateReachableOperator t (.returnCallIndirect p)) := by
  unfold step at hstep
  dsimp only at hstep
  split at hstep
  · cases hstep
  next ty hty =>
    obtain ⟨_, -, hstep⟩ := bind_eq_ok.1 hstep
    obtain ⟨v1, h1, -⟩ := bind_eq_ok.1 hstep
    obtain ⟨stack, _, hstack, hoperands, -⟩ := h.live.popOperands h.types h1
    refine yields_bind (fun e he => .callee hty (.inr ⟨.inr rfl, he⟩)) fun fty hfty => ?_
    refine yields_bind (fun e he => .signature hty (.inr ⟨.inr rfl, hfty⟩) he) fun signature hsig => ?_
    obtain ⟨params, vals, index, rfl, hvals, hconvert⟩ := holds_indirect hok hty hfty hoperands
    rw [← List.append_assoc] at hstack
    obtain ⟨hlen, hcast⟩ := bitcastWasmParams_of_holds hconvert hsig hvals
    have hpeek : ({ t with stack := stack ++ vals } : FuncTranslationState Q).peekn env.debug
        vals.length = .ok vals := peekn_of_stack rfl (fits_of_append hstack h.fits)
    dsimp only
    rw [hlen]
    refine yields_bind_of_ok (pop1_of_stack hstack) (yields_bind_of_ok hpeek (yields_bind_of_ok hcast ?_))
    exact yields_bind (fun e he => .tailCall (.inr rfl) (Except.error.inj he).symm) fun _ hb => nomatch hb

end Calls

/-! ### Plain operators -/

section Plain

theorem Holds.valueTypes {b : FunctionBuilder Q} {tys : List ValType} {vals : List ℕ}
    (h : Holds env b tys vals) : TypesOf env tys (vals.map b.valueType) :=
  List.forall₂_map_right_iff.2 (h.imp fun _ _ hval => hval.2)

theorem holds_of_valueTypes {b : FunctionBuilder Q} {tys : List ValType} {types : List Ty}
    {vals : List ℕ}
    (h : TypesOf env tys types) (hvals : b.Typed vals types) : Holds env b tys vals := by
  obtain ⟨hlt, rfl⟩ := hvals
  unfold TypesOf at h
  rw [List.forall₂_map_right_iff] at h
  exact forall₂_imp_mem h fun _ _ val hval htype => ⟨hlt val hval, htype⟩

theorem simulates_plain {p : Q} (h : Reached env results bases t v) (hok : OperatorOk env sig (.plain p))
    (hstep : step env.resources sig v (.plain p) = .ok v') :
    Fallible.Yields (EnvFault env sig (.plain p)) (Simulates env results bases t v')
      (env.translatePlainOperator t p) := by
  unfold step at hstep
  dsimp only at hstep
  split at hstep
  · cases hstep
  next ty hty =>
    obtain ⟨v1, h1, hstep⟩ := bind_eq_ok.1 hstep
    cases hstep
    obtain ⟨stack, vals, hstack, hvals, hlive⟩ := h.live.popOperands h.types h1
    have hyields := hok ty (stack.map t.builder.valueType) _ hty hvals.valueTypes
    refine fallible_yields_bind (fun e he => ?_) fun shape hshape => ?_
    · rw [hstack, List.map_append] at he
      exact .plain rfl hty hvals.valueTypes he (hyields.of_error he)
    rw [hstack, List.map_append] at hshape
    obtain ⟨hle, hreached⟩ := hyields.of_ok hshape
    rw [hvals.length] at hle hreached
    have hpops : shape.pops ≤ t.stack.length := by
      rw [hstack, List.length_append]
      omega
    obtain ⟨hext, htyped, hnum, hblocks, hpos⟩ := makeValues_spec shape.results t.builder
    have hbuilds : Builds t.stack t.builder ((t.builder.makeValues shape.results).2.insert
        (.op p (t.stack.drop (t.stack.length - shape.pops)) (t.builder.makeValues shape.results).1)) :=
      (makeValues_builds _ _).trans (insert_builds trivial fun _ ha => absurd ha List.not_mem_nil)
    have htyped' := htyped.mono (insert_extends _
      (.op p (t.stack.drop (t.stack.length - shape.pops)) (t.builder.makeValues shape.results).1))
    rw [decide_eq_true hpops, assertThat_true]
    refine fallible_yields_bind (fun e he => nomatch he) fun _ _ => ?_
    refine fallible_yields_pure ⟨hbuilds, fun _ => ?_⟩
    cases hr : shape.reachable with
    | true =>
      obtain ⟨hall, hresults⟩ := hreached hr
      have hleft : t.stack.take (t.stack.length - shape.pops) = stack := by
        rw [hall, hstack, List.length_append, Nat.add_sub_cancel, List.take_left]
      refine .live rfl (hpos ▸ h.pos.trans_eq hnum.symm) ?_
      dsimp only
      rw [hleft]
      exact (hlive.mono hbuilds.toExtends).pushOperands (holds_of_valueTypes hresults htyped')
    | false =>
      -- some of the arguments may be left on the stack
      have hleft : t.stack.take (t.stack.length - shape.pops)
          = stack ++ vals.take (vals.length - shape.pops) := by
        rw [hstack, List.length_append, Nat.add_sub_assoc hle, List.take_length_add_append]
      refine .dead rfl ?_
      dsimp only
      rw [hleft, List.append_assoc]
      exact (((hlive.mono hbuilds.toExtends).dead _).keeps (pushOperands_keeps v1 ty.results))

end Plain

end K23VM.Cranelift
