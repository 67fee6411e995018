import K23VM.Cranelift.ModuleEnvironment
import K23VM.Proofs.LockstepRun

/-!
# Plain operators

Every plain operator takes the values that the validator takes it to take, and leaves values of the types
of its results, whatever lanes the vectors have.  No pop of one finds the stack empty.
-/

namespace K23VM.Cranelift

open Wasmparser PlainBuild

/-! ## Faults -/

section Faults

open StraightLine CraneliftMemory

variable {γ α β : Type}

/-- Where the code is built nothing is popped. -/
def NeverPops (x : Build γ α) : Prop := ∀ s e, x s = .error e → e ≠ emptyStack

theorem neverPops_pure (a : α) : NeverPops (pure a : Build γ α) := fun _ _ h => nomatch h

theorem neverPops_bind {x : Build γ α} {f : α → Build γ β} (hx : NeverPops x)
    (hf : ∀ a, NeverPops (f a)) : NeverPops (x >>= f) := by
  intro s e h
  rcases bind_eq_error.1 h with h | ⟨⟨a, s'⟩, -, h⟩
  · exact hx s e h
  · exact hf a s' e h

theorem neverPops_ins (mk : ℕ → StraightLine.Inst γ) : NeverPops (ins mk) := fun _ _ h => nomatch h

theorem neverPops_ins_ (i : StraightLine.Inst γ) : NeverPops (ins_ i) := fun _ _ h => nomatch h

theorem neverPops_lift {x : Except Fault α} (h : ∀ e, x = .error e → e ≠ emptyStack) :
    NeverPops (liftM x : Build γ α) := by
  intro s e he
  rcases bind_eq_error.1 he with he | ⟨a, -, he⟩
  · exact h e he
  · cases he

theorem assertThat_eq_error {cond : Bool} {msg : String} {e : Fault}
    (h : assertThat cond msg = .error e) : e = .panic msg := by
  cases cond with
  | true => cases h
  | false => exact (Except.error.inj h).symm

theorem toI64_neverPops {x : ℕ} {e : Fault} (h : toI64 x = .error e) : e ≠ emptyStack := by
  rw [ite_panicking_eq_error h]
  decide

theorem checkedSub_neverPops {a b : ℕ} {e : Fault} (h : checkedSub a b = .error e) :
    e ≠ emptyStack := by
  rw [ite_panicking_eq_error h]
  decide

theorem castIndexToPointerTy_neverPops (index : ℕ) (indexTy pointerTy : IntTy) :
    NeverPops (castIndexToPointerTy index indexTy pointerTy) := by
  unfold castIndexToPointerTy
  split_ifs
  · exact neverPops_pure _
  · refine neverPops_bind (neverPops_lift fun e he => ?_) fun _ => neverPops_ins _
    rw [assertThat_eq_error he]
    decide

variable (mem : CraneliftMemory)

theorem computeAddr_neverPops (addrTy : IntTy) (index offset : ℕ) :
    NeverPops (mem.computeAddr addrTy index offset) := by
  unfold computeAddr
  refine neverPops_bind (neverPops_ins _) fun _ => neverPops_bind (neverPops_ins _) fun _ => ?_
  split_ifs
  · exact neverPops_pure _
  · exact neverPops_bind (neverPops_ins _) fun _ => neverPops_ins _

theorem guardedAddrFact_neverPops {pcc : Option (ℕ × ℕ)} {accessSize : ℕ} {e : Fault}
    (h : guardedAddrFact pcc accessSize = .error e) : e ≠ emptyStack := by
  cases pcc with
  | none => cases h
  | some p =>
    rcases bind_eq_error.1 h with h | ⟨_, -, h⟩
    · exact checkedSub_neverPops h
    · cases h

theorem uncheckedRegionFact_neverPops {e : Fault} (h : mem.uncheckedRegionFact = .error e) :
    e ≠ emptyStack := by
  unfold uncheckedRegionFact at h
  split at h
  · rcases bind_eq_error.1 h with h | ⟨_, -, h⟩
    · rw [ite_panicking_eq_error h]
      decide
    · cases h
  · cases h

theorem explicitCheck_neverPops (addrTy : IntTy) (index offset accessSize : ℕ) (spectre : Bool)
    (pcc : Option (ℕ × ℕ)) (oob : ℕ) :
    NeverPops (mem.explicitCheckOobConditionAndComputeAddr addrTy index offset accessSize spectre pcc
      oob) := by
  unfold explicitCheckOobConditionAndComputeAddr
  cases spectre with
  | false =>
    exact neverPops_bind (neverPops_ins_ _) fun _ =>
      neverPops_bind (computeAddr_neverPops mem _ _ _) fun _ => neverPops_pure _
  | true =>
    refine neverPops_bind (computeAddr_neverPops mem _ _ _) fun _ => ?_
    refine neverPops_bind (neverPops_ins _) fun _ => neverPops_bind (neverPops_ins _) fun _ => ?_
    exact neverPops_bind (neverPops_lift fun _ he => guardedAddrFact_neverPops he) fun _ =>
      neverPops_pure _

theorem boundsCheckAndComputeAddr_neverPops (isa : TargetIsa) (index offset accessSize : ℕ) :
    NeverPops (mem.boundsCheckAndComputeAddr isa index offset accessSize) := by
  unfold boundsCheckAndComputeAddr
  refine neverPops_bind (castIndexToPointerTy_neverPops _ _ _) fun index => ?_
  refine neverPops_bind (neverPops_lift fun e he => ?_) fun _ => ?_
  · rw [assertThat_eq_error he]
    decide
  split_ifs
  · exact neverPops_bind (neverPops_ins_ _) fun _ => neverPops_pure _
  · exact neverPops_bind (neverPops_lift fun _ he => uncheckedRegionFact_neverPops mem he) fun _ =>
      neverPops_bind (computeAddr_neverPops mem _ _ _) fun _ => neverPops_pure _
  · refine neverPops_bind (neverPops_lift fun _ he => checkedSub_neverPops he) fun _ => ?_
    refine neverPops_bind (neverPops_lift fun _ he => toI64_neverPops he) fun _ => ?_
    refine neverPops_bind (neverPops_ins _) fun _ => neverPops_bind (neverPops_ins _) fun _ => ?_
    exact neverPops_bind (explicitCheck_neverPops mem _ _ _ _ _ _ _) fun _ => neverPops_pure _

theorem prepareAddr_neverPops (isa : TargetIsa) (index accessSize : ℕ) (memarg : MemArg) :
    NeverPops (mem.prepareAddr isa index accessSize memarg) := by
  unfold CraneliftMemory.prepareAddr
  dsimp only
  split_ifs
  · refine neverPops_bind (boundsCheckAndComputeAddr_neverPops mem _ _ _ _) fun addr => ?_
    split <;> exact neverPops_pure _
  · refine neverPops_bind (neverPops_lift fun _ he => toI64_neverPops he) fun _ => ?_
    refine neverPops_bind (neverPops_ins _) fun _ => neverPops_bind (neverPops_ins _) fun _ => ?_
    refine neverPops_bind (boundsCheckAndComputeAddr_neverPops mem _ _ _ _) fun addr => ?_
    split <;> exact neverPops_pure _

end Faults

/-! ## The stack -/

section Build

variable {α β : Type} {E : Fault → Prop} {s : PlainState}

theorem plain_yields_bind {x : PlainBuild α} {f : α → PlainBuild β} {Q : α × PlainState → Prop}
    {R : β × PlainState → Prop} (hx : Fallible.Yields E Q (x s))
    (hf : ∀ a s', Q (a, s') → Fallible.Yields E R (f a s')) : Fallible.Yields E R ((x >>= f) s) :=
  Fallible.Yields.bind hx fun p hp => hf p.1 p.2 hp

theorem plain_yields_lift {x : Except Fault α} {Q : α × PlainState → Prop}
    (hE : ∀ e, x = .error e → E e) (hQ : ∀ a, x = .ok a → Q (a, s)) :
    Fallible.Yields E Q ((liftM x : PlainBuild α) s) := by
  cases x with
  | error e => exact hE e rfl
  | ok a => exact fallible_yields_pure (hQ a rfl)

theorem plain_yields_bind_lift {x : Except Fault α} {f : α → PlainBuild β} {R : β × PlainState → Prop}
    (hE : ∀ e, x = .error e → E e) (hf : ∀ a, x = .ok a → Fallible.Yields E R (f a s)) :
    Fallible.Yields E R (((liftM x : PlainBuild α) >>= f) s) := by
  cases x with
  | error e => exact hE e rfl
  | ok a => exact hf a rfl

theorem plain_yields_bind_of_run {x : PlainBuild α} {f : α → PlainBuild β} {R : β × PlainState → Prop}
    {a : α} {s' : PlainState}
    (hx : x s = (.ok (.ok (a, s')) : Except Fault (Except Error (α × PlainState))))
    (hf : Fallible.Yields E R (f a s')) : Fallible.Yields E R ((x >>= f) s) := by
  refine plain_yields_bind (Q := fun p => p = (a, s')) (hx ▸ fallible_yields_pure rfl) ?_
  rintro a s' ⟨⟩
  exact hf

theorem memory_neverPops {entities : List Entity} {e : Fault}
    (h : PlainBuild.memory entities = .error e) : e ≠ emptyStack := by
  unfold PlainBuild.memory at h
  split at h
  · cases h
  · obtain rfl := Except.error.inj h
    decide

theorem plain_prepareAddr_yields (isa : TargetIsa) (mem : CraneliftMemory) (accessSize : ℕ)
    (memarg : Wasmparser.MemArg) {Q : Bool × PlainState → Prop} (hQ : ∀ reachable, Q (reachable, s)) :
    Fallible.Yields (· ≠ emptyStack) Q (PlainBuild.prepareAddr isa mem accessSize memarg s) := by
  unfold PlainBuild.prepareAddr
  refine plain_yields_bind_lift (fun e he => prepareAddr_neverPops mem isa 0 accessSize _ _ e he) ?_
  rintro ⟨addr, _⟩ -
  cases addr with
  | reachable => exact fallible_yields_pure (hQ true)
  | unreachable => exact fallible_yields_pure (hQ false)

end Build

/-! ## Families -/

section Families

variable {P : Type} {env : TranslationEnvironment P}

theorem optionallyBitcastVector_eq (ty neededType : Ty) :
    optionallyBitcastVector ty neededType = neededType := by
  unfold optionallyBitcastVector
  split_ifs with h
  · rfl
  · exact not_not.1 h

theorem valueType_v128 {ty : Ty} (h : ty.isVector = true) :
    env.valueType .v128 = .ok ty.canonical := by
  cases ty <;> first | rfl | cases h

theorem intType_ty (ty : IntType) : env.valueType ty.valType = .ok (IntType.ty ty).canonical := by
  cases ty <;> rfl

theorem conversion_ty (op : Conversion) :
    env.valueType op.resultType = .ok (Conversion.ty op).canonical := by
  cases op with
  | trunc result | convert result => cases result <;> rfl
  | _ => rfl

theorem load_resultTy (op : Load) : env.valueType op.type = .ok (Load.resultTy op).canonical := by
  cases op <;> rfl

/-! ### Operators on vectors -/

theorem lanes_isVector (lanes : Lanes) : (Lanes.typeOf lanes).isVector = true := by
  cases lanes <;> rfl

theorem laneSize_isVector (size : LaneSize) : (LaneSize.typeOf size).isVector = true := by
  cases size <;> rfl

theorem loadZero_isVector (op : LoadZero) : (LoadZero.typeOf op).isVector = true := by
  cases op <;> rfl

theorem loadExtend_isVector (op : LoadExtend) : (LoadExtend.ty op).isVector = true := by
  cases op <;> rfl

theorem vectorUnary_isVector (op : VectorUnary) : (VectorUnary.typeOf op).isVector = true := by
  cases op <;> rfl

theorem vectorBinary_isVector (op : VectorBinary) : (VectorBinary.neededType op).isVector = true := by
  cases op <;> rfl

theorem vectorTernary_isVector (op : VectorTernary) :
    (VectorTernary.neededType op).isVector = true := by
  cases op <;> rfl

theorem vectorShift_isVector (op : VectorShift) : (VectorShift.typeOf op).isVector = true := by
  cases op <;> rfl

theorem vectorComparison_isVector (op : VectorComparison) :
    (VectorComparison.typeOf op).asTruthy.isVector = true := by
  cases op <;> rfl

theorem vectorConversion_isVector (op : VectorConversion) :
    (VectorConversion.resultTy op (VectorConversion.neededType op)).isVector = true := by
  cases op <;> rfl

theorem vectorCombination_isVector (op : VectorCombination) :
    (VectorCombination.resultTy op (VectorCombination.neededType op)).isVector = true := by
  cases op <;> rfl

end Families

/-! ## Operators -/

section Operators

variable {P : Type} {env : TranslationEnvironment P}

/-- What a plain operator leaves. -/
def PlainState.Fits (env : TranslationEnvironment P) (ty : FuncType) (s : PlainState) : Prop :=
  PlainShape.Fits env ty ⟨s.pops, s.results.reverse, s.reachable⟩

/-- On a stack whose top has values of the types of its operands a plain operator fits its type. -/
def PlainBuild.Fits (env : TranslationEnvironment P) (ty : FuncType) (x : PlainBuild Unit) : Prop :=
  ∀ types rest, TypesOf env ty.params types →
    Fallible.Yields (· ≠ emptyStack) (fun p => PlainState.Fits env ty p.2)
      (x ⟨types.reverse ++ rest, 0, [], true⟩)

/-- The result of a run that does not stop. -/
abbrev Runs (x : PlainBuild Unit) (s s' : PlainState) : Prop :=
  x s = (.ok (.ok ((), s')) : Except Fault (Except Error (Unit × PlainState)))

variable {x : PlainBuild Unit} {ty ty₁ ty₂ ty₃ out : ValType}

theorem fits_const {type : Ty} (hx : ∀ rest, Runs x ⟨rest, 0, [], true⟩ ⟨rest, 0, [type], true⟩)
    (htype : env.valueType out = .ok type.canonical) : PlainBuild.Fits env ⟨[], [out]⟩ x := by
  rintro types rest ⟨⟩
  rw [List.reverse_nil, List.nil_append, hx rest]
  exact fallible_yields_pure ⟨le_rfl, fun _ => ⟨rfl, .cons htype .nil⟩⟩

theorem fits_unary (f : Ty → Ty) (hx : ∀ a rest, Runs x ⟨a :: rest, 0, [], true⟩ ⟨rest, 1, [f a], true⟩)
    (hf : ∀ a, env.valueType ty = .ok a.canonical → env.valueType out = .ok (f a).canonical) :
    PlainBuild.Fits env ⟨[ty], [out]⟩ x := by
  rintro types rest (_ | ⟨ha, ⟨⟩⟩)
  exact (hx _ rest).symm ▸ fallible_yields_pure ⟨le_rfl, fun _ => ⟨rfl, .cons (hf _ ha) .nil⟩⟩

theorem fits_binary (f : Ty → Ty → Ty)
    (hx : ∀ a b rest, Runs x ⟨b :: a :: rest, 0, [], true⟩ ⟨rest, 2, [f a b], true⟩)
    (hf : ∀ a b, env.valueType ty₁ = .ok a.canonical → env.valueType ty₂ = .ok b.canonical →
      env.valueType out = .ok (f a b).canonical) : PlainBuild.Fits env ⟨[ty₁, ty₂], [out]⟩ x := by
  rintro types rest (_ | ⟨ha, _ | ⟨hb, ⟨⟩⟩⟩)
  exact (hx _ _ rest).symm ▸ fallible_yields_pure ⟨le_rfl, fun _ => ⟨rfl, .cons (hf _ _ ha hb) .nil⟩⟩

theorem fits_ternary (f : Ty → Ty → Ty → Ty)
    (hx : ∀ a b c rest, Runs x ⟨c :: b :: a :: rest, 0, [], true⟩ ⟨rest, 3, [f a b c], true⟩)
    (hf : ∀ a b c, env.valueType ty₁ = .ok a.canonical → env.valueType ty₂ = .ok b.canonical →
      env.valueType ty₃ = .ok c.canonical → env.valueType out = .ok (f a b c).canonical) :
    PlainBuild.Fits env ⟨[ty₁, ty₂, ty₃], [out]⟩ x := by
  rintro types rest (_ | ⟨ha, _ | ⟨hb, _ | ⟨hc, ⟨⟩⟩⟩⟩)
  exact (hx _ _ _ rest).symm ▸
    fallible_yields_pure ⟨le_rfl, fun _ => ⟨rfl, .cons (hf _ _ _ ha hb hc) .nil⟩⟩

/-- A lane of eight or sixteen bits is extended. -/
theorem extractLane_fits {plain : PlainEnvironment} {entities : List Entity} (op : ExtractLane) (lane : ℕ) :
    PlainBuild.Fits env ⟨[.v128], [op.lanes.valType]⟩ (plain.translate entities (.extractLane op lane)) := by
  cases op with
  | i8x16ExtractLaneS | i8x16ExtractLaneU | i16x8ExtractLaneS | i16x8ExtractLaneU =>
    exact fits_unary (fun _ => .I32) (fun _ _ => rfl) fun _ _ => rfl
  | i32x4ExtractLane | i64x2ExtractLane | f32x4ExtractLane | f64x2ExtractLane =>
    refine fits_unary (fun a => (optionallyBitcastVector a _).laneType) (fun _ _ => rfl) fun a _ => ?_
    rw [optionallyBitcastVector_eq]
    rfl

/-! ### Operators that are not implemented -/

theorem todo_yields {s : PlainState} {Q : Unit × PlainState → Prop} :
    Fallible.Yields (· ≠ emptyStack) Q (PlainBuild.todo s) := by
  have h : Fault.panic "not yet implemented" ≠ emptyStack := by decide
  exact h

theorem popTimes_yields : ∀ (n : ℕ) {s : PlainState}, n ≤ s.operands.length → s.results = [] →
    Fallible.Yields (· ≠ emptyStack) (fun _ => True) (popTimes n s)
  | 0, _, _, _ => fallible_yields_pure trivial
  | n + 1, ⟨[], _, _, _⟩, h, _ => absurd h (Nat.not_succ_le_zero n)
  | n + 1, ⟨_ :: _, _, _, _⟩, h, rfl => popTimes_yields n (Nat.le_of_succ_le_succ h) rfl

theorem fits_popTimes_todo {ty : FuncType} {n : ℕ} (h : n = ty.params.length) :
    PlainBuild.Fits env ty (do popTimes n; PlainBuild.todo) := by
  intro types rest htypes
  refine plain_yields_bind (popTimes_yields n ?_ rfl) fun _ _ _ => todo_yields
  rw [List.length_append, List.length_reverse, ← htypes.length_eq, h]
  exact Nat.le_add_right _ _

theorem fits_todo (ty : FuncType) : PlainBuild.Fits env ty PlainBuild.todo :=
  fun _ _ _ => todo_yields

/-! ### Accesses -/

section Accesses

variable {isa : TargetIsa} {entities : List Entity} {memarg : Wasmparser.MemArg} {a : Ty}
  {operands results : List Ty} {pops : ℕ} {reachable : Bool}

/-- The address of an access to the memory that the operator has asked for. -/
theorem access_yields {α : Type} {accessSize : ℕ} {f : Bool → PlainBuild α} {s : PlainState}
    {Q : α × PlainState → Prop} (hf : ∀ reachable, Fallible.Yields (· ≠ emptyStack) Q (f reachable s)) :
    Fallible.Yields (· ≠ emptyStack) Q (((liftM (PlainBuild.memory entities) : PlainBuild _) >>=
      fun mem => PlainBuild.prepareAddr isa mem accessSize memarg >>= f) s) := by
  refine plain_yields_bind_lift (fun _ he => memory_neverPops he) fun mem _ => ?_
  refine plain_yields_bind (Q := fun p => p.2 = s) (plain_prepareAddr_yields _ _ _ _ fun _ => rfl) ?_
  rintro reachable s rfl
  exact hf reachable

theorem afterLoad_yields {opcode : Opcode} {type : Ty} {rest : PlainBuild Unit}
    {Q : Unit × PlainState → Prop}
    (hreached : Fallible.Yields (· ≠ emptyStack) Q (rest ⟨operands, pops + 1, [type], reachable⟩))
    (htraps : Q ((), ⟨operands, pops + 1, [], false⟩)) :
    Fallible.Yields (· ≠ emptyStack) Q
      (afterLoad isa entities memarg opcode type rest ⟨a :: operands, pops, [], reachable⟩) := by
  unfold afterLoad translateLoad
  refine plain_yields_bind (Q := fun p => p = (true, ⟨operands, pops + 1, [type], reachable⟩)
    ∨ p = (false, ⟨operands, pops + 1, [], reachable⟩)) ?_ ?_
  · refine plain_yields_bind_of_run rfl (access_yields fun reachable => ?_)
    cases reachable
    · exact fallible_yields_pure (.inr rfl)
    · exact fallible_yields_pure (.inl rfl)
  · rintro reached s (h | h)
    all_goals obtain ⟨rfl, rfl⟩ := Prod.mk.inj h
    · exact hreached
    · exact fallible_yields_pure htraps

theorem translateStore_yields {opcode : Opcode} {s s' : PlainState} {tys : Ty × Ty}
    {Q : Unit × PlainState → Prop}
    (hpop : pop2 s = (.ok (.ok (tys, s')) : Except Fault (Except Error _)))
    (hQ : Q ((), s')) (htraps : Q ((), { s' with reachable := false })) :
    Fallible.Yields (· ≠ emptyStack) Q (translateStore isa entities memarg opcode s) := by
  unfold translateStore
  obtain ⟨⟨valTy, s1⟩, h1, hpop⟩ := fallible_bind_eq_ok.1 hpop
  obtain ⟨⟨index, s2⟩, h2, hpop⟩ := fallible_bind_eq_ok.1 hpop
  cases hpop
  refine plain_yields_bind_of_run h1 (plain_yields_bind_of_run h2 (access_yields fun reachable => ?_))
  cases reachable
  · exact fallible_yields_pure htraps
  · exact fallible_yields_pure hQ

variable {env : TranslationEnvironment P} {it ty out : ValType}

theorem afterLoad_fits {opcode : Opcode} {type result : Ty} {rest : PlainBuild Unit}
    (hrest : ∀ operands, Runs rest ⟨operands, 1, [type], true⟩ ⟨operands, 1, [result], true⟩)
    (hresult : env.valueType out = .ok result.canonical) :
    PlainBuild.Fits env ⟨[it], [out]⟩ (afterLoad isa entities memarg opcode type rest) := by
  rintro types operands (_ | ⟨-, ⟨⟩⟩)
  refine afterLoad_yields ?_ ⟨le_rfl, nofun⟩
  exact (hrest operands).symm ▸ fallible_yields_pure ⟨le_rfl, fun _ => ⟨rfl, .cons hresult .nil⟩⟩

theorem translateStore_fits {opcode : Opcode} :
    PlainBuild.Fits env ⟨[it, ty], []⟩ (translateStore isa entities memarg opcode) := by
  rintro types operands (_ | ⟨-, _ | ⟨-, ⟨⟩⟩⟩)
  exact translateStore_yields rfl ⟨le_rfl, fun _ => ⟨rfl, .nil⟩⟩ ⟨le_rfl, nofun⟩

variable {plain : PlainEnvironment}

theorem loadExtend_fits (op : LoadExtend) :
    PlainBuild.Fits env ⟨[it], [.v128]⟩ (plain.translate entities (.loadExtend op memarg)) := by
  rintro types rest (_ | ⟨-, ⟨⟩⟩)
  refine plain_yields_bind_of_run rfl (access_yields fun reachable => ?_)
  cases reachable
  · exact fallible_yields_pure ⟨le_rfl, nofun⟩
  · exact fallible_yields_pure
      ⟨le_rfl, fun _ => ⟨rfl, .cons (valueType_v128 (loadExtend_isVector op)) .nil⟩⟩

theorem loadLane_fits (size : LaneSize) (lane : ℕ) :
    PlainBuild.Fits env ⟨[it, .v128], [.v128]⟩ (plain.translate entities (.loadLane size memarg lane)) := by
  rintro types rest (_ | ⟨-, _ | ⟨-, ⟨⟩⟩⟩)
  refine plain_yields_bind_of_run rfl (afterLoad_yields ?_ ⟨le_rfl, nofun⟩)
  refine fallible_yields_pure ⟨le_rfl, fun _ => ⟨rfl, .cons ?_ .nil⟩⟩
  rw [optionallyBitcastVector_eq]
  exact valueType_v128 (laneSize_isVector size)

theorem storeLane_fits (size : LaneSize) (lane : ℕ) :
    PlainBuild.Fits env ⟨[it, .v128], []⟩ (plain.translate entities (.storeLane size memarg lane)) := by
  rintro types rest (_ | ⟨-, _ | ⟨-, ⟨⟩⟩⟩)
  refine plain_yields_bind_of_run rfl (plain_yields_bind_of_run rfl ?_)
  exact translateStore_yields rfl ⟨le_rfl, fun _ => ⟨rfl, .nil⟩⟩ ⟨le_rfl, nofun⟩

/-- The offset of an operator that waits or notifies, whose runtime function is missing. -/
theorem offset_todo_yields {s : PlainState} {Q : Unit × PlainState → Prop} :
    Fallible.Yields (· ≠ emptyStack) Q ((do
      if memarg.offset ≠ 0 then
        let _ ← (toI64 memarg.offset : Except Fault _)
      PlainBuild.todo : PlainBuild Unit) s) := by
  dsimp only
  split_ifs
  · exact plain_yields_bind_lift (fun _ he => toI64_neverPops he) fun _ _ => todo_yields
  · exact todo_yields

theorem memoryAtomicWait_fits (width : IntType) {ty₁ ty₂ ty₃ : ValType} :
    PlainBuild.Fits env ⟨[ty₁, ty₂, ty₃], [out]⟩
      (plain.translate entities (.memoryAtomicWait width memarg)) := by
  rintro types rest (_ | ⟨-, _ | ⟨-, _ | ⟨-, ⟨⟩⟩⟩⟩)
  refine plain_yields_bind_of_run rfl (plain_yields_bind_lift (fun e he => ?_) fun _ _ =>
    offset_todo_yields)
  rw [assertThat_eq_error he]
  decide

theorem memoryAtomicNotify_fits {ty₁ ty₂ : ValType} :
    PlainBuild.Fits env ⟨[ty₁, ty₂], [out]⟩ (plain.translate entities (.memoryAtomicNotify memarg)) := by
  rintro types rest (_ | ⟨-, _ | ⟨-, ⟨⟩⟩⟩)
  exact plain_yields_bind_of_run rfl offset_todo_yields

end Accesses

end Operators

/-! ## The operators of a module -/

/-- What the validator knows of a module is what was kept of it: the types of its functions and globals,
and the function types, as they were converted. -/
structure ModuleEnvironment.Ok (m : ModuleEnvironment) : Prop where
  types : TypesOk m.environment.translation
  functions : ∀ (i index : ℕ) (f : FunctionDesc), m.resources.functions[i]? = some index →
    m.module.functions[i]? = some f → f.signature = index
  funcTypes : ∀ (i : ℕ) (ty : FuncType) (fty : WasmFuncType), m.resources.types[i]? = some (some ty) →
    m.wasmFuncType i = .ok fty → m.types.convertFuncType ty = .ok fty
  globals : ∀ (i : ℕ) (ty : GlobalType) (global : GlobalDesc), m.resources.globals[i]? = some ty →
    m.module.globals[i]? = some global → m.types.convertValType ty.contentType = .ok global.contentType

namespace ModuleEnvironment

variable {m : ModuleEnvironment} {entities : List Entity}

theorem makes_global {i : ℕ} (hm : m.Ok) {ty : GlobalType} (hty : m.resources.globals[i]? = some ty)
    (h : List.Forall₂ m.environment.Makes [.global i] entities) :
    ∃ gv offset type, entities = [.global (.memory gv offset type)]
      ∧ m.environment.translation.valueType ty.contentType = .ok type := by
  obtain _ | ⟨hmakes, ⟨⟩⟩ := h
  rename_i entity
  cases entity with
  | global global =>
    obtain ⟨b, h⟩ := hmakes
    obtain ⟨global', hglobal, h⟩ := bind_eq_ok.1 h
    obtain ⟨_, -, h⟩ := bind_eq_ok.1 h
    obtain ⟨offset, -, h⟩ := bind_eq_ok.1 h
    obtain ⟨type, htype, h⟩ := bind_eq_ok.1 h
    cases h
    exact ⟨_, _, type, rfl, valueType_convert (hm.globals i ty global' hty (unwrap_eq_ok.1 hglobal)) htype⟩
  | signature | function | table | memory => exact hmakes.elim

theorem makes_signature {i : ℕ} (hm : m.Ok) {ty : FuncType} (hty : m.resources.types[i]? = some (some ty))
    (h : List.Forall₂ m.environment.Makes [.signature i] entities) :
    ∃ sig, entities = [.signature sig ty.params.length] := by
  obtain _ | ⟨hmakes, ⟨⟩⟩ := h
  rename_i entity
  cases entity with
  | signature sig numArgs =>
    obtain ⟨b, h⟩ := hmakes
    obtain ⟨fty, hfty, h⟩ := bind_eq_ok.1 h
    obtain ⟨signature, hsig, h⟩ := bind_eq_ok.1 h
    cases h
    have hconvert : m.environment.translation.types.convertFuncType ty = .ok fty :=
      hm.funcTypes i ty fty hty hfty
    obtain ⟨-, hparams, -⟩ := wasmCallSignature_cases hconvert hsig
    exact ⟨_, by rw [mapM_ok_length hparams]⟩
  | global | function | table | memory => exact hmakes.elim

theorem heapType_neverPops {hty : HeapType} {e : Fault} (h : m.types.convertHeapType hty = .error e) :
    e ≠ emptyStack := by
  cases hty with
  | abstract => cases h
  | concrete index =>
    rcases bind_eq_error.1 h with h | ⟨i, -, h⟩
    · cases index with
      | module | id =>
        rw [unwrap_eq_error h]
        decide
      | recGroup =>
        obtain rfl := Except.error.inj h
        decide
    · unfold WasmparserTypeConverter.concreteHeapType at h
      split at h
      · split at h <;> cases h
      · obtain rfl := Except.error.inj h
        decide

theorem translateRefNull_neverPops {hty : WasmHeapType} {e : Fault}
    (h : m.plain.translateRefNull hty = .error e) : e ≠ emptyStack := by
  rcases bind_eq_error.1 h with h | ⟨_, -, h⟩
  · rw [assertThat_eq_error h]
    decide
  · unfold referenceType at h
    split at h
    case h_1 | h_2 | h_3 => cases h
    all_goals
      obtain rfl := Except.error.inj h
      decide

theorem refNull_fits (hm : m.Ok) (hty : HeapType) :
    PlainBuild.Fits m.environment.translation ⟨[], [.ref ⟨true, hty⟩]⟩
      (m.plain.translate entities (.refNull hty)) := by
  rintro types rest ⟨⟩
  refine plain_yields_bind_lift (fun _ he => heapType_neverPops he) fun hty' hconvert => ?_
  refine plain_yields_bind_lift (fun _ he => translateRefNull_neverPops he) fun type htype => ?_
  refine fallible_yields_pure ⟨le_rfl, fun _ => ⟨rfl, .cons ?_ .nil⟩⟩
  obtain ⟨_, -, htype⟩ := bind_eq_ok.1 htype
  have hvalue : m.environment.translation.valueType (.ref ⟨true, hty⟩) = .ok type :=
    bind_eq_ok.2 ⟨hty', hconvert, htype⟩
  rw [valueType_canonical hm.types hvalue, hvalue]

theorem globalGet_fits (hm : m.Ok) {i : ℕ} {ty : GlobalType} (hty : m.resources.globals[i]? = some ty)
    (hmakes : List.Forall₂ m.environment.Makes [.global i] entities) :
    PlainBuild.Fits m.environment.translation ⟨[], [ty.contentType]⟩
      (m.plain.translate entities (.globalGet i)) := by
  obtain ⟨gv, offset, type, rfl, htype⟩ := makes_global hm hty hmakes
  refine fits_const (fun rest => rfl) ?_
  rw [valueType_canonical hm.types htype, htype]

theorem globalSet_fits (hm : m.Ok) {i : ℕ} {ty : GlobalType} (hty : m.resources.globals[i]? = some ty)
    (hmakes : List.Forall₂ m.environment.Makes [.global i] entities) :
    PlainBuild.Fits m.environment.translation ⟨[ty.contentType], []⟩
      (m.plain.translate entities (.globalSet i)) := by
  obtain ⟨gv, offset, type, rfl, -⟩ := makes_global hm hty hmakes
  rintro types rest (_ | ⟨-, ⟨⟩⟩)
  refine plain_yields_bind_of_run rfl (plain_yields_lift (fun e he => ?_) fun _ _ => ?_)
  · rw [(debugAssert_eq_error he).2.2]
    decide
  · exact ⟨le_rfl, fun _ => ⟨rfl, .nil⟩⟩

theorem callRefType_cases {i : ℕ} {ty : FuncType} (h : m.resources.callRefType i = some ty) :
    ∃ fty, m.resources.types[i]? = some (some fty)
      ∧ ty = ⟨fty.params ++ [.ref ⟨true, .concrete (.module i)⟩], fty.results⟩ := by
  obtain ⟨o, ho, h⟩ := Option.bind_eq_some_iff.1 h
  obtain ⟨fty, rfl, h⟩ := Option.bind_eq_some_iff.1 h
  exact ⟨fty, ho, (Option.some.inj h).symm⟩

theorem callRef_fits (hm : m.Ok) {i : ℕ} {ty : FuncType}
    (hty : m.resources.types[i]? = some (some ty))
    (hmakes : List.Forall₂ m.environment.Makes [.signature i] entities) :
    PlainBuild.Fits m.environment.translation
      ⟨ty.params ++ [.ref ⟨true, .concrete (.module i)⟩], ty.results⟩
      (m.plain.translate entities (.callRef i)) := by
  obtain ⟨sig, rfl⟩ := makes_signature hm hty hmakes
  refine fits_popTimes_todo ?_
  rw [List.length_append]
  rfl

theorem runtimeType_length {r : ModuleResources} {op : RuntimeOperator} {ty : FuncType}
    (h : r.runtimeType op = some ty) : RuntimeOperator.pops op = ty.params.length := by
  cases op with
  | dataDrop | elemDrop | refI31 | i31GetS | i31GetU =>
    cases h
    rfl
  | memoryCopy | tableCopy =>
    obtain ⟨_, -, h⟩ := Option.bind_eq_some_iff.1 h
    obtain ⟨_, -, h⟩ := Option.bind_eq_some_iff.1 h
    cases h
    rfl
  | _ =>
    obtain ⟨_, -, h⟩ := Option.bind_eq_some_iff.1 h
    cases h
    rfl

/-- What is asked of the module for an operator on a memory. -/
theorem memoryIndexType_cases {r : ModuleResources} {mem : ℕ} {f : ValType → FuncType} {ty : FuncType}
    (h : (r.memoryIndexType mem).bind (fun it => some (f it)) = some ty) : ∃ it, ty = f it := by
  obtain ⟨it, -, h⟩ := Option.bind_eq_some_iff.1 h
  exact ⟨it, (Option.some.inj h).symm⟩

theorem plain_fits (hm : m.Ok) {op : PlainOperator} {ty : FuncType} (hty : m.resources.plainType op = some ty)
    (hmakes : List.Forall₂ m.environment.Makes (PlainOperator.entities op) entities) :
    PlainBuild.Fits m.environment.translation ty (m.plain.translate entities op) := by
  cases op with
  | i32Const | i64Const | f32Const | f64Const | v128Const =>
    cases hty
    exact fits_const (fun _ => rfl) rfl
  | intBinary | floatBinary =>
    cases hty
    exact fits_binary (fun a _ => a) (fun _ _ _ => rfl) fun _ _ ha _ => ha
  | intUnary | floatUnary | v128Not =>
    cases hty
    exact fits_unary id (fun _ _ => rfl) fun _ ha => ha
  | intEqz =>
    cases hty
    exact fits_unary (fun _ => .I32) (fun _ _ => rfl) fun _ _ => rfl
  | intComparison | floatComparison =>
    cases hty
    exact fits_binary (fun _ _ => .I32) (fun _ _ _ => rfl) fun _ _ _ _ => rfl
  | conversion op =>
    cases hty
    exact fits_unary (fun _ => Conversion.ty op) (fun _ _ => rfl) fun _ _ => conversion_ty op
  | signExtension op =>
    cases hty
    exact fits_unary (fun _ => IntType.ty op.type) (fun _ _ => rfl) fun _ _ => intType_ty op.type
  | globalGet i =>
    obtain ⟨g, hg, hty⟩ := Option.bind_eq_some_iff.1 hty
    cases hty
    exact globalGet_fits hm hg hmakes
  | globalSet i =>
    obtain ⟨g, hg, hty⟩ := Option.bind_eq_some_iff.1 hty
    split_ifs at hty
    cases hty
    exact globalSet_fits hm hg hmakes
  | refNull hty' =>
    cases hty
    exact refNull_fits hm hty'
  | load op memarg =>
    obtain ⟨it, rfl⟩ := memoryIndexType_cases hty
    exact afterLoad_fits (fun _ => rfl) (load_resultTy op)
  | store op memarg =>
    obtain ⟨it, rfl⟩ := memoryIndexType_cases hty
    exact translateStore_fits
  | runtime op => exact fits_popTimes_todo (runtimeType_length hty)
  | memoryAtomicWait width memarg =>
    obtain ⟨it, rfl⟩ := memoryIndexType_cases hty
    exact memoryAtomicWait_fits width
  | memoryAtomicNotify memarg =>
    obtain ⟨it, rfl⟩ := memoryIndexType_cases hty
    exact memoryAtomicNotify_fits
  | atomicLoad | atomicStore | atomicRmw | atomicRmwCmpxchg | v128Store => exact fits_todo ty
  | atomicFence =>
    cases hty
    rintro types rest ⟨⟩
    exact fallible_yields_pure ⟨le_rfl, fun _ => ⟨rfl, .nil⟩⟩
  | loadExtend op memarg =>
    obtain ⟨it, rfl⟩ := memoryIndexType_cases hty
    exact loadExtend_fits op
  | loadSplat size memarg =>
    obtain ⟨it, rfl⟩ := memoryIndexType_cases hty
    exact afterLoad_fits (fun _ => rfl) (valueType_v128 (laneSize_isVector size))
  | loadZero op memarg =>
    obtain ⟨it, rfl⟩ := memoryIndexType_cases hty
    exact afterLoad_fits (fun _ => rfl) (valueType_v128 (loadZero_isVector op))
  | loadLane size memarg lane =>
    obtain ⟨it, rfl⟩ := memoryIndexType_cases hty
    exact loadLane_fits size lane
  | storeLane size memarg lane =>
    obtain ⟨it, rfl⟩ := memoryIndexType_cases hty
    exact storeLane_fits size lane
  | splat lanes =>
    cases hty
    exact fits_unary (fun _ => Lanes.typeOf lanes) (fun _ _ => rfl) fun _ _ =>
      valueType_v128 (lanes_isVector lanes)
  | extractLane op lane =>
    cases hty
    exact extractLane_fits op lane
  | replaceLane lanes lane =>
    cases hty
    refine fits_binary (fun a _ => optionallyBitcastVector a (Lanes.typeOf lanes)) (fun _ _ _ => rfl)
      fun a _ _ _ => ?_
    rw [optionallyBitcastVector_eq]
    exact valueType_v128 (lanes_isVector lanes)
  | vectorUnary op =>
    cases hty
    refine fits_unary (fun a => optionallyBitcastVector a (VectorUnary.typeOf op)) (fun _ _ => rfl)
      fun a _ => ?_
    rw [optionallyBitcastVector_eq]
    exact valueType_v128 (vectorUnary_isVector op)
  | vectorBinary op =>
    cases hty
    refine fits_binary (fun a _ => optionallyBitcastVector a (VectorBinary.neededType op))
      (fun _ _ _ => rfl) fun a _ _ _ => ?_
    rw [optionallyBitcastVector_eq]
    exact valueType_v128 (vectorBinary_isVector op)
  | vectorTernary op =>
    cases hty
    refine fits_ternary (fun a _ _ => optionallyBitcastVector a (VectorTernary.neededType op))
      (fun _ _ _ _ => rfl) fun a _ _ _ _ _ => ?_
    rw [optionallyBitcastVector_eq]
    exact valueType_v128 (vectorTernary_isVector op)
  | vectorShift op =>
    cases hty
    refine fits_binary (fun a _ => optionallyBitcastVector a (VectorShift.typeOf op)) (fun _ _ _ => rfl)
      fun a _ _ _ => ?_
    rw [optionallyBitcastVector_eq]
    exact valueType_v128 (vectorShift_isVector op)
  | vectorTest op =>
    cases hty
    exact fits_unary (fun _ => .I32) (fun _ _ => rfl) fun _ _ => rfl
  | vectorComparison op =>
    cases hty
    refine fits_binary (fun a _ => (optionallyBitcastVector a (VectorComparison.typeOf op)).asTruthy)
      (fun _ _ _ => rfl) fun a _ _ _ => ?_
    rw [optionallyBitcastVector_eq]
    exact valueType_v128 (vectorComparison_isVector op)
  | vectorConversion op =>
    cases hty
    refine fits_unary (fun a => VectorConversion.resultTy op
      (optionallyBitcastVector a (VectorConversion.neededType op))) (fun _ _ => rfl) fun a _ => ?_
    rw [optionallyBitcastVector_eq]
    exact valueType_v128 (vectorConversion_isVector op)
  | vectorCombination op =>
    cases hty
    refine fits_binary (fun a _ => VectorCombination.resultTy op
      (optionallyBitcastVector a (VectorCombination.neededType op))) (fun _ _ _ => rfl) fun a _ _ _ => ?_
    rw [optionallyBitcastVector_eq]
    exact valueType_v128 (vectorCombination_isVector op)
  | i32x4RelaxedDotI8x16I7x16AddS =>
    cases hty
    refine fits_ternary (fun a _ _ => (optionallyBitcastVector a .I8X16).mergeLanes.mergeLanes)
      (fun _ _ _ _ => rfl) fun a _ _ _ _ _ => ?_
    rw [optionallyBitcastVector_eq]
    rfl
  | callRef i =>
    obtain ⟨fty, hfty, rfl⟩ := callRefType_cases hty
    exact callRef_fits hm hfty hmakes
  | unsupported feature uty =>
    intro types rest _ p hp
    cases hp

theorem translatePlain_yields (hm : m.Ok) {op : PlainOperator} {ty : FuncType}
    (hty : m.resources.plainType op = some ty)
    (hmakes : List.Forall₂ m.environment.Makes (PlainOperator.entities op) entities) {below types : List Ty}
    (htypes : TypesOf m.environment.translation ty.params types) :
    Fallible.Yields (· ≠ emptyStack) (PlainShape.Fits m.environment.translation ty)
      (m.plain.translatePlain entities op (below ++ types)) := by
  unfold PlainEnvironment.translatePlain
  rw [List.reverse_append]
  exact (plain_fits hm hty hmakes types below.reverse htypes).bind fun _ hp => fallible_yields_pure hp

/-! ## Calls -/

theorem functionType_cases {i : ℕ} {ty : FuncType} (h : m.resources.functionType i = some ty) :
    ∃ index, m.resources.functions[i]? = some index ∧ m.resources.types[index]? = some (some ty) := by
  obtain ⟨index, hindex, h⟩ := Option.bind_eq_some_iff.1 h
  obtain ⟨o, ho, rfl⟩ := Option.bind_eq_some_iff.1 h
  exact ⟨index, hindex, ho⟩

theorem callee_convert (hm : m.Ok) {p : ModuleOperator} {ty : FuncType} {callee : Callee}
    (hty : m.resources.signature p = some ty) (hcallee : m.callee (p, entities) = .ok callee) :
    m.types.convertFuncType ty = .ok callee.ty := by
  cases p with
  | call i =>
    obtain ⟨index, hindex, hty⟩ := functionType_cases hty
    obtain ⟨function, hfunction, h⟩ := bind_eq_ok.1 hcallee
    obtain ⟨fty, hfty, h⟩ := bind_eq_ok.1 h
    cases h
    refine hm.funcTypes index ty fty hty ?_
    rwa [hm.functions i index function hindex (unwrap_eq_ok.1 hfunction)] at hfty
  | _ => cases hcallee

theorem callIndirectType_cases {i table : ℕ} {ty : FuncType}
    (h : m.resources.callIndirectType i table = some ty) :
    ∃ fty index, m.resources.types[i]? = some (some fty)
      ∧ ty = ⟨fty.params ++ [index], fty.results⟩ := by
  obtain ⟨o, ho, htype⟩ := Option.bind_eq_some_iff.1 h
  obtain ⟨fty, rfl, htable⟩ := Option.bind_eq_some_iff.1 htype
  obtain ⟨_, -, hty⟩ := Option.bind_eq_some_iff.1 htable
  exact ⟨fty, _, ho, (Option.some.inj hty).symm⟩

theorem indirectCallee_convert (hm : m.Ok) {p : ModuleOperator} {ty : FuncType} {fty : WasmFuncType}
    (hty : m.resources.signature p = some ty) (hcallee : m.indirectCallee (p, entities) = .ok fty) :
    ∃ params index, ty.params = params ++ [index]
      ∧ m.types.convertFuncType ⟨params, ty.results⟩ = .ok fty := by
  cases p with
  | callIndirect i table | returnCallIndirect i table =>
    obtain ⟨cty, index, hcty, rfl⟩ := callIndirectType_cases hty
    exact ⟨cty.params, index, rfl, hm.funcTypes i cty fty hcty hcallee⟩
  | returnCallRef i =>
    obtain ⟨cty, hcty, rfl⟩ := callRefType_cases hty
    exact ⟨cty.params, _, rfl, hm.funcTypes i cty fty hcty hcallee⟩
  | _ => cases hcallee

/-- The plain operators and the calls of a module are what the validator takes them for. -/
theorem environment_ok (hm : m.Ok) : EnvironmentOk m.environment m.resources.signature := by
  refine ⟨hm.types, fun op entities hmakes => ?_⟩
  cases op with
  | plain p =>
    intro ty below types hty htypes
    have hmakes := hmakes p (.inl rfl)
    cases p with
    | plain p => exact translatePlain_yields hm hty hmakes htypes
    | _ =>
      have h : Fault.panic "internal error: entered unreachable code" ≠ emptyStack := by decide
      exact h
  | call p | returnCall p => exact fun ty callee hty hcallee => callee_convert hm hty hcallee
  | callIndirect p | returnCallIndirect p =>
    exact fun ty fty hty hcallee => indirectCallee_convert hm hty hcallee
  | _ => trivial

end ModuleEnvironment

end K23VM.Cranelift
