import K23VM.Cranelift.CodeTranslator
import Mathlib.Tactic

/-!
# Typed code

Code under construction is well typed: an edge passes arguments of the types of the parameters of its
block, a return and a call pass arguments of the types of their signature, a variable is defined with a
value of its type, and a cast is one between vectors.  `Builds` says what an extension of the code keeps
of this, and where what it passes on comes from.
-/

namespace K23VM.Cranelift

variable {P : Type}

/-- The type of a value where control flow joins. -/
def Ty.canonical (ty : Ty) : Ty := if ty.isVector then .I8X16 else ty

theorem Ty.canonical_of_nonCanonical {ty : Ty} (h : ty.isNonCanonicalV128) :
    ty.isVector ∧ ty.canonical = .I8X16 := by
  cases ty <;> first | exact ⟨rfl, rfl⟩ | cases h

theorem Ty.canonical_of_canonical {ty : Ty} (h : ty.isNonCanonicalV128 = false) :
    ty.canonical = ty := by
  cases ty <;> first | rfl | cases h

@[simp] theorem Ty.isVector_canonical (ty : Ty) : ty.canonical.isVector = ty.isVector := by
  cases ty <;> rfl

theorem Ty.canonical_of_isVector {ty : Ty} (h : ty.isVector) : ty.canonical = .I8X16 := if_pos h

theorem Ty.canonical_of_not_isVector {ty : Ty} (h : ty.isVector = false) : ty.canonical = ty := by
  cases ty <;> first | rfl | cases h

namespace FunctionBuilder

/-! ## Values and their types -/

/-- Values of the code with their types. -/
def Typed (b : FunctionBuilder P) (vals : List ℕ) (tys : List Ty) : Prop :=
  (∀ v ∈ vals, v < b.numValues) ∧ vals.map b.valueType = tys

/-- Blocks, values and variables are added, and none of them changes but for the instructions of a
block, which are added to, and its end. -/
structure Extends (b b' : FunctionBuilder P) : Prop where
  values : b.numValues ≤ b'.numValues
  blocks : b.numBlocks ≤ b'.numBlocks
  valueType : ∀ v < b.numValues, b'.valueType v = b.valueType v
  params : ∀ block < b.numBlocks, b'.blockParams block = b.blockParams block
  insts : ∀ block < b.numBlocks, ∀ i ∈ (b.blocks block).insts, i ∈ (b'.blocks block).insts
  vars : ∀ (var : ℕ) (ty : Ty), b.vars[var]? = some ty → b'.vars[var]? = some ty
  returns : b'.returns = b.returns
  entry : b'.entry = b.entry

theorem Extends.refl (b : FunctionBuilder P) : Extends b b where
  values := le_rfl
  blocks := le_rfl
  valueType _ _ := rfl
  params _ _ := rfl
  insts _ _ _ hi := hi
  vars _ _ hvar := hvar
  returns := rfl
  entry := rfl

theorem Extends.trans {b b' b'' : FunctionBuilder P} (h : Extends b b') (h' : Extends b' b'') :
    Extends b b'' where
  values := h.values.trans h'.values
  blocks := h.blocks.trans h'.blocks
  valueType v hv := (h'.valueType v (hv.trans_le h.values)).trans (h.valueType v hv)
  params block hb := (h'.params block (hb.trans_le h.blocks)).trans (h.params block hb)
  insts block hb i hi := h'.insts block (hb.trans_le h.blocks) i (h.insts block hb i hi)
  vars var ty hvar := h'.vars var ty (h.vars var ty hvar)
  returns := h'.returns.trans h.returns
  entry := h'.entry.trans h.entry

section Typed

variable {b b' : FunctionBuilder P}

theorem typed_nil : b.Typed [] [] := ⟨fun _ h => absurd h List.not_mem_nil, rfl⟩

theorem typed_singleton {v : ℕ} (hv : v < b.numValues) : b.Typed [v] [b.valueType v] :=
  ⟨fun _ h => by rwa [List.mem_singleton.1 h], rfl⟩

theorem typed_singleton_iff {v : ℕ} {ty : Ty} :
    b.Typed [v] [ty] ↔ v < b.numValues ∧ b.valueType v = ty := by
  constructor
  · intro h
    exact ⟨h.1 v (List.mem_singleton_self v), List.singleton_inj.1 h.2⟩
  · rintro ⟨hv, rfl⟩
    exact typed_singleton hv

theorem Typed.append {vals vals' : List ℕ} {tys tys' : List Ty} (h : b.Typed vals tys)
    (h' : b.Typed vals' tys') : b.Typed (vals ++ vals') (tys ++ tys') := by
  refine ⟨fun w hw => ?_, by rw [List.map_append, h.2, h'.2]⟩
  rcases List.mem_append.1 hw with hw | hw
  · exact h.1 w hw
  · exact h'.1 w hw

theorem Typed.length {vals : List ℕ} {tys : List Ty} (h : b.Typed vals tys) :
    vals.length = tys.length := by
  rw [← h.2, List.length_map]

theorem Typed.mono {vals : List ℕ} {tys : List Ty} (h : b.Typed vals tys) (hb : Extends b b') :
    b'.Typed vals tys := by
  refine ⟨fun v hv => (h.1 v hv).trans_le hb.values, ?_⟩
  rw [← h.2]
  exact List.map_congr_left fun v hv => hb.valueType v (h.1 v hv)

end Typed

/-! ## Well typed code -/

/-- An edge to a block that takes what it passes. -/
def EdgeOk (b : FunctionBuilder P) (call : BlockCall) : Prop :=
  call.block < b.numBlocks ∧ ∃ tys, b.Typed call.args tys ∧ b.Typed (b.blockParams call.block) tys

theorem edgeOk_of_extends {b b' : FunctionBuilder P} {block : ℕ} {args : List ℕ} {tys : List Ty}
    (hb : Extends b b') (hlt : block < b.numBlocks) (hparams : b.Typed (b.blockParams block) tys)
    (hargs : b'.Typed args tys) : b'.EdgeOk ⟨block, args⟩ := by
  refine ⟨hlt.trans_le hb.blocks, tys, hargs, ?_⟩
  rw [hb.params block hlt]
  exact hparams.mono hb

theorem EdgeOk.mono {b b' : FunctionBuilder P} {call : BlockCall} (h : b.EdgeOk call)
    (hb : Extends b b') : b'.EdgeOk call := by
  obtain ⟨hblock, tys, hargs, hparams⟩ := h
  exact edgeOk_of_extends hb hblock hparams (hargs.mono hb)

end FunctionBuilder

open FunctionBuilder

/-- The edges of a terminator pass what their blocks take, and a return what the function returns. -/
def Terminator.Ok (b : FunctionBuilder P) (t : Terminator) : Prop :=
  (∀ call ∈ t.edges, b.EdgeOk call) ∧ ∀ args, t = .return_ args → b.Typed args b.returns

/-- The values that an instruction joins have the same types, and a cast is one between vectors. -/
def ClifInst.Ok (b : FunctionBuilder P) : ClifInst P → Prop
  | .bitcast ty arg result =>
    ∃ argTy : Ty, argTy.isVector ∧ ty.isVector ∧ b.Typed [arg, result] [argTy, ty]
  | .call _ sig args results => b.Typed args sig.params ∧ b.Typed results sig.returns
  | .defVar var val | .useVar var val => ∃ ty, b.vars[var]? = some ty ∧ b.Typed [val] [ty]
  | .select _ x y result => ∃ ty, b.Typed [x, y, result] [ty, ty, ty]
  | _ => True

theorem Terminator.Ok.mono {b b' : FunctionBuilder P} {t : Terminator} (h : t.Ok b)
    (hb : Extends b b') : t.Ok b' := by
  refine ⟨fun call hcall => (h.1 call hcall).mono hb, fun args hargs => ?_⟩
  rw [hb.returns]
  exact (h.2 args hargs).mono hb

theorem ClifInst.Ok.mono {b b' : FunctionBuilder P} {i : ClifInst P} (h : i.Ok b)
    (hb : Extends b b') : i.Ok b' := by
  cases i with
  | bitcast =>
    obtain ⟨argTy, harg, hty, htyped⟩ := h
    exact ⟨argTy, harg, hty, htyped.mono hb⟩
  | call => exact ⟨h.1.mono hb, h.2.mono hb⟩
  | defVar | useVar =>
    obtain ⟨ty, hvar, htyped⟩ := h
    exact ⟨ty, hb.vars _ ty hvar, htyped.mono hb⟩
  | select =>
    obtain ⟨ty, htyped⟩ := h
    exact ⟨ty, htyped.mono hb⟩
  | _ => trivial

/-- The lists of values that a terminator passes on. -/
def Terminator.passes : Terminator → List (List ℕ)
  | .return_ args => [args]
  | t => t.edges.map BlockCall.args

/-- The lists of values that an instruction passes on, which for a call are those after the contexts. -/
def ClifInst.passes : ClifInst P → List (List ℕ)
  | .call _ _ args _ => [args.drop 2]
  | _ => []

namespace FunctionBuilder

structure WellTyped (b : FunctionBuilder P) : Prop where
  params : ∀ block < b.numBlocks, ∀ p ∈ b.blockParams block, p < b.numValues
  insts : ∀ block < b.numBlocks, ∀ i ∈ (b.blocks block).insts, i.Ok b
  terminators : ∀ block < b.numBlocks, ∀ t, (b.blocks block).terminator = some t → t.Ok b

/-! ## Where values come from -/

/-- A value or a cast of it. -/
def Casts (b : FunctionBuilder P) (v arg : ℕ) : Prop :=
  arg = v ∨ ∃ block < b.numBlocks, ∃ ty, ClifInst.bitcast ty v arg ∈ (b.blocks block).insts

/-- Arguments that are neighbouring values of the stack, in order, each itself or cast. -/
def FromStack (b : FunctionBuilder P) (stack args : List ℕ) : Prop :=
  ∃ vals, vals <:+: stack ∧ List.Forall₂ b.Casts vals args

/-- What the code of a block passes on. -/
def Passes (b : FunctionBuilder P) (args : List ℕ) : Prop :=
  ∃ block < b.numBlocks, (∃ i ∈ (b.blocks block).insts, args ∈ i.passes)
    ∨ ∃ t, (b.blocks block).terminator = some t ∧ args ∈ t.passes

/-- Code is extended to other code, which is well typed if it was, and what is passed on in addition comes
from the stack. -/
structure Builds (stack : List ℕ) (b b' : FunctionBuilder P) : Prop extends Extends b b' where
  wellTyped : b.WellTyped → b'.WellTyped
  passes : ∀ args, b'.Passes args → b.Passes args ∨ b'.FromStack stack args

section Builds

variable {b b' b'' : FunctionBuilder P} {stack : List ℕ}

theorem Casts.mono {v arg : ℕ} (h : b.Casts v arg) (hb : Extends b b') : b'.Casts v arg := by
  rcases h with rfl | ⟨block, hblock, ty, hi⟩
  · exact .inl rfl
  · exact .inr ⟨block, hblock.trans_le hb.blocks, ty, hb.insts block hblock _ hi⟩

theorem FromStack.mono {args : List ℕ} (h : b.FromStack stack args) (hb : Extends b b') :
    b'.FromStack stack args := by
  obtain ⟨vals, hvals, hcasts⟩ := h
  exact ⟨vals, hvals, hcasts.imp fun _ _ hc => hc.mono hb⟩

theorem fromStack_nil : b.FromStack stack [] := ⟨[], List.nil_infix, .nil⟩

theorem Builds.refl (stack : List ℕ) (b : FunctionBuilder P) : Builds stack b b :=
  ⟨.refl b, id, fun _ h => .inl h⟩

theorem Builds.trans (h : Builds stack b b') (h' : Builds stack b' b'') : Builds stack b b'' := by
  refine ⟨h.toExtends.trans h'.toExtends, fun hb => h'.wellTyped (h.wellTyped hb), fun args ha => ?_⟩
  rcases h'.passes args ha with ha | ha
  · exact (h.passes args ha).imp_right fun hs => hs.mono h'.toExtends
  · exact .inr ha

/-- A stack that is part of another. -/
theorem Builds.within {stack' : List ℕ} (h : Builds stack b b') (hs : stack <:+: stack') :
    Builds stack' b b' := by
  refine ⟨h.toExtends, h.wellTyped, fun args ha => ?_⟩
  rcases h.passes args ha with ha | ⟨vals, hvals, hcasts⟩
  · exact .inl ha
  · exact .inr ⟨vals, hvals.trans hs, hcasts⟩

/-! ## Building -/

@[simp] theorem modifyBlock_blocks_self (block : ℕ) (f : BlockData P → BlockData P) :
    (b.modifyBlock block f).blocks block = f (b.blocks block) := Function.update_self ..

theorem modifyBlock_blocks_ne {block block' : ℕ} (h : block' ≠ block)
    (f : BlockData P → BlockData P) : (b.modifyBlock block f).blocks block' = b.blocks block' :=
  Function.update_of_ne h ..

/-- A block of which only the instructions and the end change. -/
theorem modifyBlock_extends {block : ℕ} {f : BlockData P → BlockData P}
    (hparams : (f (b.blocks block)).params = (b.blocks block).params)
    (hinsts : ∀ i ∈ (b.blocks block).insts, i ∈ (f (b.blocks block)).insts) :
    Extends b (b.modifyBlock block f) := by
  refine ⟨le_rfl, le_rfl, fun _ _ => rfl, fun block' _ => ?_, fun block' _ i hi => ?_,
    fun _ _ h => h, rfl, rfl⟩
  · by_cases h : block' = block
    · subst h
      unfold blockParams
      rw [modifyBlock_blocks_self, hparams]
    · unfold blockParams
      rw [modifyBlock_blocks_ne h]
  · by_cases h : block' = block
    · subst h
      rw [modifyBlock_blocks_self]
      exact hinsts i hi
    · rw [modifyBlock_blocks_ne h]
      exact hi

/-- What is added to the block is typed, and passes on values of the stack. -/
theorem modifyBlock_builds {block : ℕ} {f : BlockData P → BlockData P}
    (hparams : (f (b.blocks block)).params = (b.blocks block).params)
    (hinsts : ∀ i ∈ (b.blocks block).insts, i ∈ (f (b.blocks block)).insts)
    (hnew : ∀ i ∈ (f (b.blocks block)).insts, i ∈ (b.blocks block).insts
      ∨ i.Ok b ∧ ∀ args ∈ i.passes, b.FromStack stack args)
    (hterm : ∀ t, (f (b.blocks block)).terminator = some t →
      (b.WellTyped → block < b.numBlocks → t.Ok b)
        ∧ ∀ args ∈ t.passes, (∃ t', (b.blocks block).terminator = some t' ∧ args ∈ t'.passes)
          ∨ b.FromStack stack args) :
    Builds stack b (b.modifyBlock block f) := by
  have hext := modifyBlock_extends hparams hinsts
  refine ⟨hext, fun hb => ⟨fun block' hlt p hp => ?_, fun block' hlt i hi => ?_,
    fun block' hlt t ht => ?_⟩, ?_⟩
  · rw [hext.params block' hlt] at hp
    exact hb.params block' hlt p hp
  · by_cases h : block' = block
    · subst h
      rw [modifyBlock_blocks_self] at hi
      rcases hnew i hi with hi | hi
      · exact (hb.insts block' hlt i hi).mono hext
      · exact hi.1.mono hext
    · rw [modifyBlock_blocks_ne h] at hi
      exact (hb.insts block' hlt i hi).mono hext
  · by_cases h : block' = block
    · subst h
      rw [modifyBlock_blocks_self] at ht
      exact ((hterm t ht).1 hb hlt).mono hext
    · rw [modifyBlock_blocks_ne h] at ht
      exact (hb.terminators block' hlt t ht).mono hext
  · rintro args ⟨block', hlt, ⟨i, hi, ha⟩ | ⟨t, ht, ha⟩⟩
    · by_cases h : block' = block
      · subst h
        rw [modifyBlock_blocks_self] at hi
        rcases hnew i hi with hi | hi
        · exact .inl ⟨block', hlt, .inl ⟨i, hi, ha⟩⟩
        · exact .inr ((hi.2 args ha).mono hext)
      · rw [modifyBlock_blocks_ne h] at hi
        exact .inl ⟨block', hlt, .inl ⟨i, hi, ha⟩⟩
    · by_cases h : block' = block
      · subst h
        rw [modifyBlock_blocks_self] at ht
        rcases (hterm t ht).2 args ha with ⟨t', ht', ha⟩ | ha
        · exact .inl ⟨block', hlt, .inr ⟨t', ht', ha⟩⟩
        · exact .inr (ha.mono hext)
      · rw [modifyBlock_blocks_ne h] at ht
        exact .inl ⟨block', hlt, .inr ⟨t, ht, ha⟩⟩

/-- Nothing is put into the blocks. -/
theorem builds_of_blocks (h : Extends b b') (hnum : b'.numBlocks = b.numBlocks)
    (hblocks : b'.blocks = b.blocks) : Builds stack b b' := by
  refine ⟨h, fun hb => ⟨fun block hlt p hp => ?_, fun block hlt i hi => ?_, fun block hlt t ht => ?_⟩,
    ?_⟩
  · rw [hnum] at hlt
    rw [h.params block hlt] at hp
    exact (hb.params block hlt p hp).trans_le h.values
  · rw [hnum] at hlt
    rw [hblocks] at hi
    exact (hb.insts block hlt i hi).mono h
  · rw [hnum] at hlt
    rw [hblocks] at ht
    exact (hb.terminators block hlt t ht).mono h
  · rintro args ⟨block, hlt, ha⟩
    rw [hnum] at hlt
    rw [hblocks] at ha
    exact .inl ⟨block, hlt, ha⟩

/-- A block is added, with nothing in it but its parameters. -/
theorem builds_of_newBlock (h : Extends b b') (hnum : b'.numBlocks = b.numBlocks + 1)
    (hblocks : ∀ block < b.numBlocks, b'.blocks block = b.blocks block)
    (hnew : b'.blocks b.numBlocks = ⟨b'.blockParams b.numBlocks, [], none, false⟩)
    (hparams : ∀ p ∈ b'.blockParams b.numBlocks, p < b'.numValues) : Builds stack b b' := by
  have hcases : ∀ {block}, block < b'.numBlocks → block < b.numBlocks ∨ block = b.numBlocks := by
    omega
  refine ⟨h, fun hb => ⟨fun block hlt p hp => ?_, fun block hlt i hi => ?_, fun block hlt t ht => ?_⟩,
    ?_⟩
  · rcases hcases hlt with hlt | rfl
    · rw [h.params block hlt] at hp
      exact (hb.params block hlt p hp).trans_le h.values
    · exact hparams p hp
  · rcases hcases hlt with hlt | rfl
    · rw [hblocks block hlt] at hi
      exact (hb.insts block hlt i hi).mono h
    · rw [hnew] at hi
      cases hi
  · rcases hcases hlt with hlt | rfl
    · rw [hblocks block hlt] at ht
      exact (hb.terminators block hlt t ht).mono h
    · rw [hnew] at ht
      cases ht
  · rintro args ⟨block, hlt, ha⟩
    rcases hcases hlt with hlt | rfl
    · rw [hblocks block hlt] at ha
      exact .inl ⟨block, hlt, ha⟩
    · rw [hnew] at ha
      rcases ha with ⟨i, hi, -⟩ | ⟨t, ht, -⟩
      · cases hi
      · cases ht

theorem makeValue_extends (b : FunctionBuilder P) (ty : Ty) : Extends b (b.makeValue ty).2 where
  values := Nat.le_succ _
  blocks := le_rfl
  valueType _ hv := Function.update_of_ne hv.ne ..
  params _ _ := rfl
  insts _ _ _ hi := hi
  vars _ _ hvar := hvar
  returns := rfl
  entry := rfl

@[simp] theorem makeValue_valueType (ty : Ty) :
    (b.makeValue ty).2.valueType (b.makeValue ty).1 = ty := Function.update_self ..

theorem makeValue_lt (b : FunctionBuilder P) (ty : Ty) :
    (b.makeValue ty).1 < (b.makeValue ty).2.numValues := Nat.lt_succ_self _

theorem makeValue_typed (b : FunctionBuilder P) (ty : Ty) :
    (b.makeValue ty).2.Typed [(b.makeValue ty).1] [ty] := by
  have h := typed_singleton (makeValue_lt b ty)
  rwa [makeValue_valueType] at h

/-- Values are made, and nothing else. -/
theorem makeValues_spec (tys : List Ty) : ∀ b : FunctionBuilder P,
    Extends b (b.makeValues tys).2 ∧ (b.makeValues tys).2.Typed (b.makeValues tys).1 tys
      ∧ (b.makeValues tys).2.numBlocks = b.numBlocks ∧ (b.makeValues tys).2.blocks = b.blocks
      ∧ (b.makeValues tys).2.position = b.position := by
  induction tys with
  | nil => exact fun b => ⟨.refl b, typed_nil, rfl, rfl, rfl⟩
  | cons ty tys ih =>
    intro b
    obtain ⟨hext, htyped, hnum, hblocks, hpos⟩ := ih (b.makeValue ty).2
    exact ⟨(makeValue_extends b ty).trans hext, ((makeValue_typed b ty).mono hext).append htyped,
      hnum, hblocks, hpos⟩

theorem makeValues_builds (b : FunctionBuilder P) (tys : List Ty) :
    Builds stack b (b.makeValues tys).2 := by
  obtain ⟨hext, -, hnum, hblocks, -⟩ := makeValues_spec tys b
  exact builds_of_blocks hext hnum hblocks

theorem makeValue_builds (b : FunctionBuilder P) (ty : Ty) : Builds stack b (b.makeValue ty).2 :=
  builds_of_blocks (makeValue_extends b ty) rfl rfl

theorem createBlock_blocks_ne {block : ℕ} (h : block < b.numBlocks) :
    b.createBlock.2.blocks block = b.blocks block := Function.update_of_ne h.ne ..

theorem createBlock_extends (b : FunctionBuilder P) : Extends b b.createBlock.2 where
  values := le_rfl
  blocks := Nat.le_succ _
  valueType _ _ := rfl
  params block hb := congrArg BlockData.params (createBlock_blocks_ne hb)
  insts block hb i hi := by rwa [createBlock_blocks_ne hb]
  vars _ _ hvar := hvar
  returns := rfl
  entry := rfl

@[simp] theorem createBlock_blocks_self :
    b.createBlock.2.blocks b.numBlocks = ⟨[], [], none, false⟩ := Function.update_self ..

@[simp] theorem createBlock_blockParams : b.createBlock.2.blockParams b.numBlocks = [] :=
  congrArg BlockData.params createBlock_blocks_self

theorem createBlock_builds (b : FunctionBuilder P) : Builds stack b b.createBlock.2 := by
  refine builds_of_newBlock (createBlock_extends b) rfl (fun _ => createBlock_blocks_ne) ?_ ?_
  · rw [createBlock_blocks_self, createBlock_blockParams]
  · rw [createBlock_blockParams]
    exact fun p hp => absurd hp List.not_mem_nil

/-- A new block with parameters of the given types. -/
theorem newBlock_spec (b : FunctionBuilder P) (stack : List ℕ) (tys : List Ty) :
    Builds stack b (b.createBlock.2.appendBlockParams b.numBlocks tys)
      ∧ (b.createBlock.2.appendBlockParams b.numBlocks tys).Typed
          ((b.createBlock.2.appendBlockParams b.numBlocks tys).blockParams b.numBlocks) tys
      ∧ (b.createBlock.2.appendBlockParams b.numBlocks tys).numBlocks = b.numBlocks + 1
      ∧ (b.createBlock.2.appendBlockParams b.numBlocks tys).position = b.position := by
  obtain ⟨hext, htyped, hnum, hblocks, hpos⟩ := makeValues_spec tys b.createBlock.2
  have hext' := (createBlock_extends b).trans hext
  have hself : (b.createBlock.2.appendBlockParams b.numBlocks tys).blocks b.numBlocks
      = ⟨(b.createBlock.2.makeValues tys).1, [], none, false⟩ := by
    unfold appendBlockParams
    rw [modifyBlock_blocks_self, hblocks, createBlock_blocks_self]
    rfl
  have hparams : (b.createBlock.2.appendBlockParams b.numBlocks tys).blockParams b.numBlocks
      = (b.createBlock.2.makeValues tys).1 := congrArg BlockData.params hself
  have hne : ∀ block < b.numBlocks,
      (b.createBlock.2.appendBlockParams b.numBlocks tys).blocks block = b.blocks block := by
    intro block hlt
    unfold appendBlockParams
    rw [modifyBlock_blocks_ne hlt.ne, hblocks, createBlock_blocks_ne hlt]
  refine ⟨builds_of_newBlock ⟨hext'.values, ?_, hext'.valueType, fun block hlt => ?_,
    fun block hlt i hi => ?_, hext'.vars, hext'.returns, hext'.entry⟩ hnum hne ?_ ?_, ?_, hnum, hpos⟩
  · exact (Nat.le_succ _).trans hnum.ge
  · exact congrArg BlockData.params (hne block hlt)
  · rwa [hne block hlt]
  · rw [hself, hparams]
  · rw [hparams]
    exact htyped.1
  · rw [hparams]
    exact htyped

theorem switchToBlock_builds (b : FunctionBuilder P) (block : ℕ) :
    Builds stack b (b.switchToBlock block) :=
  builds_of_blocks ⟨le_rfl, le_rfl, fun _ _ => rfl, fun _ _ => rfl, fun _ _ _ h => h, fun _ _ h => h,
    rfl, rfl⟩ rfl rfl

theorem sealBlock_builds (b : FunctionBuilder P) (block : ℕ) : Builds stack b (b.sealBlock block) :=
  modifyBlock_builds rfl (fun _ h => h) (fun _ h => .inl h) fun t ht =>
    ⟨fun hb hlt => hb.terminators block hlt t ht, fun _ ha => .inl ⟨t, ht, ha⟩⟩

theorem insert_extends (b : FunctionBuilder P) (i : ClifInst P) : Extends b (b.insert i) :=
  modifyBlock_extends rfl fun _ h => List.mem_append_left _ h

theorem insert_builds {i : ClifInst P} (hi : i.Ok b)
    (hpasses : ∀ args ∈ i.passes, b.FromStack stack args) : Builds stack b (b.insert i) := by
  refine modifyBlock_builds rfl (fun _ h => List.mem_append_left _ h) (fun j hj => ?_) fun t ht =>
    ⟨fun hb hlt => hb.terminators _ hlt t ht, fun _ ha => .inl ⟨t, ht, ha⟩⟩
  rcases List.mem_append.1 hj with hj | hj
  · exact .inl hj
  · rw [List.mem_singleton.1 hj]
    exact .inr ⟨hi, hpasses⟩

theorem terminate_builds {t : Terminator} (ht : t.Ok b)
    (hpasses : ∀ args ∈ t.passes, b.FromStack stack args) : Builds stack b (b.terminate t) := by
  refine modifyBlock_builds rfl (fun _ h => h) (fun _ h => .inl h) fun t' ht' => ?_
  obtain rfl := Option.some.inj ht'
  exact ⟨fun _ _ => ht, fun args ha => .inr (hpasses args ha)⟩

theorem mem_insert {i : ClifInst P} : i ∈ ((b.insert i).blocks b.position).insts := by
  unfold insert
  rw [modifyBlock_blocks_self]
  exact List.mem_append_right _ (List.mem_singleton_self i)

/-- An instruction that passes nothing on, with a new value as its result. -/
theorem ins_builds {ty : Ty} {mk : ℕ → ClifInst P}
    (hok : (mk b.numValues).Ok (b.makeValue ty).2) (hpasses : (mk b.numValues).passes = []) :
    Builds stack b (b.ins ty mk).2 := by
  refine (makeValue_builds b ty).trans (insert_builds hok fun args ha => ?_)
  rw [hpasses] at ha
  exact absurd ha List.not_mem_nil

theorem ins_typed (b : FunctionBuilder P) (ty : Ty) (mk : ℕ → ClifInst P) :
    (b.ins ty mk).2.Typed [(b.ins ty mk).1] [ty] := makeValue_typed b ty

@[simp] theorem ins_position (ty : Ty) (mk : ℕ → ClifInst P) :
    (b.ins ty mk).2.position = b.position := rfl

@[simp] theorem ins_numBlocks (ty : Ty) (mk : ℕ → ClifInst P) :
    (b.ins ty mk).2.numBlocks = b.numBlocks := rfl

/-! ## Sending edges elsewhere -/

@[simp] theorem setBlock_args (old new : ℕ) (call : BlockCall) :
    (call.setBlock old new).args = call.args := by
  unfold BlockCall.setBlock
  split_ifs <;> rfl

theorem EdgeOk.setBlock {old new : ℕ} {tys : List Ty} {call : BlockCall} (h : b.EdgeOk call)
    (hold : b.Typed (b.blockParams old) tys) (hnew : b.Typed (b.blockParams new) tys)
    (hlt : new < b.numBlocks) : b.EdgeOk (call.setBlock old new) := by
  obtain ⟨hblock, tys', hargs, hparams⟩ := h
  unfold BlockCall.setBlock
  split_ifs with heq
  · rw [heq] at hparams
    obtain rfl := hold.2.symm.trans hparams.2
    exact ⟨hlt, tys, hargs, hnew⟩
  · exact ⟨hblock, tys', hargs, hparams⟩

theorem changeDestination_edges (t : Terminator) (old new : ℕ) :
    (t.changeDestination old new).edges = t.edges.map (BlockCall.setBlock old new) := by
  cases t with
  | brTable val targets default =>
    have hset : ∀ block, (⟨if block = old then new else block, []⟩ : BlockCall)
        = BlockCall.setBlock old new ⟨block, []⟩ := by
      intro block
      unfold BlockCall.setBlock
      split_ifs <;> rfl
    have hmap : (targets ++ [default]).map (fun block => if block = old then new else block)
        = targets.map (fun block => if block = old then new else block)
          ++ [if default = old then new else default] := List.map_append
    show List.map _ (_ ++ [_]) = List.map _ (List.map _ _)
    rw [← hmap, List.map_map, List.map_map]
    exact List.map_congr_left fun block _ => hset block
  | _ => rfl

theorem changeDestination_passes (t : Terminator) (old new : ℕ) :
    (t.changeDestination old new).passes = t.passes := by
  have hargs : (t.changeDestination old new).edges.map BlockCall.args = t.edges.map BlockCall.args := by
    rw [changeDestination_edges, List.map_map]
    exact List.map_congr_left fun call _ => setBlock_args old new call
  cases t with
  | return_ => rfl
  | _ => exact hargs

/-- A block takes the edges of another one with parameters of the same types. -/
theorem changeJumpDestination_builds {inst old new : ℕ} {tys : List Ty}
    (hold : b.Typed (b.blockParams old) tys) (hnew : b.Typed (b.blockParams new) tys)
    (hlt : new < b.numBlocks) : Builds stack b (b.changeJumpDestination inst old new) := by
  refine modifyBlock_builds rfl (fun _ h => h) (fun _ h => .inl h) fun t' ht' => ?_
  obtain ⟨t, ht, rfl⟩ := Option.map_eq_some_iff.1 ht'
  refine ⟨fun hb hlt' => ⟨fun call hcall => ?_, fun args hargs => ?_⟩, fun args ha => .inl ⟨t, ht, ?_⟩⟩
  · rw [changeDestination_edges] at hcall
    obtain ⟨call', hcall', rfl⟩ := List.mem_map.1 hcall
    exact ((hb.terminators inst hlt' t ht).1 call' hcall').setBlock hold hnew hlt
  · cases t with
    | return_ => exact (hb.terminators inst hlt' _ ht).2 args hargs
    | _ => cases hargs
  · rwa [changeDestination_passes] at ha

/-! ## Casts -/

/-- Values whose types are the given ones once they are cast where control flow joins. -/
def Canonical (b : FunctionBuilder P) (vals : List ℕ) (tys : List Ty) : Prop :=
  List.Forall₂ (fun val ty => val < b.numValues ∧ (b.valueType val).canonical = ty) vals tys

theorem Canonical.mono {vals : List ℕ} {tys : List Ty} (h : b.Canonical vals tys)
    (hb : Extends b b') : b'.Canonical vals tys :=
  h.imp fun val ty hval => ⟨hval.1.trans_le hb.values, by rw [hb.valueType val hval.1, hval.2]⟩

/-- Code in which values have been cast to the given types. -/
structure CastsTo (b b' : FunctionBuilder P) (vals args : List ℕ) (tys : List Ty) : Prop where
  builds : ∀ stack, Builds stack b b'
  casts : List.Forall₂ b'.Casts vals args
  typed : b'.Typed args tys
  position : b'.position = b.position
  numBlocks : b'.numBlocks = b.numBlocks

theorem castsTo_nil (b : FunctionBuilder P) : CastsTo b b [] [] [] :=
  ⟨fun stack => .refl stack b, .nil, typed_nil, rfl, rfl⟩

/-- A value that is left as it is. -/
theorem castsTo_self {val : ℕ} (h : val < b.numValues) :
    CastsTo b b [val] [val] [b.valueType val] :=
  ⟨fun stack => .refl stack b, .cons (.inl rfl) .nil, typed_singleton h, rfl, rfl⟩

theorem CastsTo.append {vals vals' args args' : List ℕ} {tys tys' : List Ty}
    (h : CastsTo b b' vals args tys) (h' : CastsTo b' b'' vals' args' tys') :
    CastsTo b b'' (vals ++ vals') (args ++ args') (tys ++ tys') where
  builds stack := (h.builds stack).trans (h'.builds stack)
  casts := by
    have hext := (h'.builds []).toExtends
    exact List.rel_append (h.casts.imp fun _ _ hc => hc.mono hext) h'.casts
  typed := (h.typed.mono (h'.builds []).toExtends).append h'.typed
  position := h'.position.trans h.position
  numBlocks := h'.numBlocks.trans h.numBlocks

theorem CastsTo.pos_lt {vals args : List ℕ} {tys : List Ty} (h : CastsTo b b' vals args tys)
    (hpos : b.position < b.numBlocks) : b'.position < b'.numBlocks := by
  rwa [h.position, h.numBlocks]

/-- What has been cast comes from the stack. -/
theorem CastsTo.fromStack {vals args : List ℕ} {tys : List Ty} (h : CastsTo b b' vals args tys)
    (hvals : vals <:+: stack) : b'.FromStack stack args := ⟨vals, hvals, h.casts⟩

theorem bitcast_castsTo {val : ℕ} {ty : Ty} (hval : val < b.numValues)
    (hvec : (b.valueType val).isVector) (hty : ty.isVector) (hpos : b.position < b.numBlocks) :
    CastsTo b (b.ins ty (.bitcast ty val)).2 [val] [(b.ins ty (.bitcast ty val)).1] [ty] where
  builds stack := by
    refine ins_builds ⟨b.valueType val, hvec, hty, ?_⟩ rfl
    exact ((typed_singleton hval).mono (makeValue_extends b ty)).append (makeValue_typed b ty)
  casts := by
    refine .cons (.inr ⟨b.position, hpos, ty, ?_⟩) .nil
    exact mem_insert
  typed := ins_typed b ty _
  position := rfl
  numBlocks := rfl

theorem optionallyBitcastVector_castsTo {val : ℕ} {ty : Ty} (hval : val < b.numValues)
    (hvec : (b.valueType val).isVector) (hty : ty.isVector) (hpos : b.position < b.numBlocks) :
    CastsTo b (b.optionallyBitcastVector val ty).2 [val] [(b.optionallyBitcastVector val ty).1] [ty] := by
  unfold optionallyBitcastVector
  split_ifs with h
  · exact bitcast_castsTo hval hvec hty hpos
  · have heq := castsTo_self hval
    rwa [not_not.1 h] at heq

theorem canonicaliseV128Values_castsTo : ∀ {vals : List ℕ} {tys : List Ty} {b : FunctionBuilder P},
    b.Canonical vals tys → b.position < b.numBlocks →
      CastsTo b (b.canonicaliseV128Values vals).2 vals (b.canonicaliseV128Values vals).1 tys
  | [], _, b, .nil, _ => castsTo_nil b
  | val :: vals, ty :: tys, b, .cons ⟨hval, hty⟩ htail, hpos => by
    unfold canonicaliseV128Values
    have hhead : CastsTo b
        (if (b.valueType val).isNonCanonicalV128 then b.ins .I8X16 (.bitcast .I8X16 val)
          else (val, b)).2 [val]
        [(if (b.valueType val).isNonCanonicalV128 then b.ins .I8X16 (.bitcast .I8X16 val)
          else (val, b)).1] [ty] := by
      split_ifs with h
      · rw [← hty, (Ty.canonical_of_nonCanonical h).2]
        exact bitcast_castsTo hval (Ty.canonical_of_nonCanonical h).1 rfl hpos
      · rw [← hty, Ty.canonical_of_canonical (Bool.eq_false_iff.2 h)]
        exact castsTo_self hval
    have htail' : Canonical _ vals tys := Canonical.mono htail (hhead.builds []).toExtends
    exact hhead.append (canonicaliseV128Values_castsTo htail' (hhead.pos_lt hpos))

/-- There are as many values as types, and a value is a vector where its type is one. -/
theorem checkArguments_canonical : ∀ {vals : List ℕ} {tys : List Ty},
    b.Canonical vals tys → b.checkArguments vals tys = .ok ()
  | [], _, .nil => rfl
  | val :: vals, ty :: tys, .cons ⟨_, hty⟩ htail => by
    unfold checkArguments
    rw [← hty, Ty.isVector_canonical]
    cases h : (b.valueType val).isVector with
    | false => exact checkArguments_canonical htail
    | true => exact checkArguments_canonical htail

theorem bitcastVectors_castsTo : ∀ {vals : List ℕ} {tys : List Ty} {b : FunctionBuilder P},
    b.Canonical vals tys → b.position < b.numBlocks →
      CastsTo b (b.bitcastVectors vals tys).2 vals (b.bitcastVectors vals tys).1 tys
  | [], _, b, .nil, _ => castsTo_nil b
  | val :: vals, ty :: tys, b, .cons ⟨hval, hty⟩ htail, hpos => by
    unfold bitcastVectors
    have hhead : CastsTo b (if ty.isVector then b.optionallyBitcastVector val ty else (val, b)).2 [val]
        [(if ty.isVector then b.optionallyBitcastVector val ty else (val, b)).1] [ty] := by
      have hvec : (b.valueType val).isVector = ty.isVector := by rw [← hty, Ty.isVector_canonical]
      split_ifs with h
      · exact optionallyBitcastVector_castsTo hval (hvec.trans h) h hpos
      · rw [Ty.canonical_of_not_isVector (hvec.trans (Bool.eq_false_iff.2 h))] at hty
        rw [← hty]
        exact castsTo_self hval
    have htail' : Canonical _ vals tys := Canonical.mono htail (hhead.builds []).toExtends
    exact hhead.append (bitcastVectors_castsTo htail' (hhead.pos_lt hpos))

theorem bitcastWasmReturns_canonical {vals : List ℕ} (h : b.Canonical vals b.returns) :
    b.bitcastWasmReturns vals = .ok (b.bitcastVectors vals b.returns) := by
  unfold bitcastWasmReturns
  rw [checkArguments_canonical h]
  rfl

theorem bitcastWasmParams_canonical {sig : IrSignature} {vals : List ℕ}
    (h : b.Canonical vals sig.wasmParams) :
    b.bitcastWasmParams sig vals = .ok (b.bitcastVectors vals sig.wasmParams) := by
  unfold bitcastWasmParams
  rw [checkArguments_canonical h]
  rfl

theorem castLocal_castsTo {val : ℕ} (hval : val < b.numValues) (hpos : b.position < b.numBlocks) :
    CastsTo b (b.castLocal val).2 [val] [(b.castLocal val).1] [(b.valueType val).canonical] := by
  unfold castLocal
  split_ifs with h
  · rw [Ty.canonical_of_isVector h]
    exact optionallyBitcastVector_castsTo hval h rfl hpos
  · rw [Ty.canonical_of_not_isVector (Bool.eq_false_iff.2 h)]
    exact castsTo_self hval

/-! ## Ends of blocks -/

theorem canonicaliseV128Values_numBlocks : ∀ (vals : List ℕ) (b : FunctionBuilder P),
    (b.canonicaliseV128Values vals).2.numBlocks = b.numBlocks
  | [], _ => rfl
  | val :: vals, b => by
    unfold canonicaliseV128Values
    refine (canonicaliseV128Values_numBlocks vals _).trans ?_
    split_ifs <;> rfl

@[simp] theorem canonicaliseThenJump_numBlocks (dest : ℕ) (vals : List ℕ) :
    (b.canonicaliseThenJump dest vals).numBlocks = b.numBlocks :=
  canonicaliseV128Values_numBlocks vals b

@[simp] theorem canonicaliseBrif_numBlocks (cond blockThen blockElse : ℕ) (valsThen valsElse : List ℕ) :
    (b.canonicaliseBrif cond blockThen valsThen blockElse valsElse).numBlocks = b.numBlocks :=
  (canonicaliseV128Values_numBlocks valsElse _).trans (canonicaliseV128Values_numBlocks valsThen b)

theorem canonicaliseThenJump_builds {dest : ℕ} {vals : List ℕ} {tys : List Ty}
    (hvals : b.Canonical vals tys) (hdest : b.Typed (b.blockParams dest) tys)
    (hlt : dest < b.numBlocks) (hpos : b.position < b.numBlocks) (hstack : vals <:+: stack) :
    Builds stack b (b.canonicaliseThenJump dest vals) := by
  have hcast := canonicaliseV128Values_castsTo hvals hpos
  have hext := (hcast.builds []).toExtends
  refine (hcast.builds stack).trans (terminate_builds ⟨fun call hcall => ?_, fun _ h => ?_⟩ ?_)
  · rw [List.mem_singleton.1 hcall]
    exact edgeOk_of_extends hext hlt hdest hcast.typed
  · cases h
  · intro args ha
    rw [List.mem_singleton.1 ha]
    exact hcast.fromStack hstack

/-- One of the two edges of a conditional branch has no arguments. -/
theorem canonicaliseBrif_builds {cond blockThen blockElse : ℕ} {valsThen valsElse : List ℕ}
    {tysThen tysElse : List Ty} (hthen : b.Canonical valsThen tysThen)
    (helse : b.Canonical valsElse tysElse) (hblockThen : b.Typed (b.blockParams blockThen) tysThen)
    (hblockElse : b.Typed (b.blockParams blockElse) tysElse) (hltThen : blockThen < b.numBlocks)
    (hltElse : blockElse < b.numBlocks) (hpos : b.position < b.numBlocks)
    (hstackThen : valsThen <:+: stack) (hstackElse : valsElse <:+: stack) :
    Builds stack b (b.canonicaliseBrif cond blockThen valsThen blockElse valsElse) := by
  have hcast := canonicaliseV128Values_castsTo hthen hpos
  have hext := (hcast.builds []).toExtends
  have hcast' := canonicaliseV128Values_castsTo (helse.mono hext) (hcast.pos_lt hpos)
  have hext' := (hcast'.builds []).toExtends
  have hext'' := hext.trans hext'
  refine ((hcast.builds stack).trans (hcast'.builds stack)).trans
    (terminate_builds ⟨fun call hcall => ?_, fun _ h => ?_⟩ ?_)
  · rcases List.mem_pair.1 hcall with rfl | rfl
    · exact edgeOk_of_extends hext'' hltThen hblockThen (hcast.typed.mono hext')
    · exact edgeOk_of_extends hext'' hltElse hblockElse hcast'.typed
  · cases h
  · intro args ha
    rcases List.mem_pair.1 ha with rfl | rfl
    · exact (hcast.fromStack hstackThen).mono hext'
    · exact hcast'.fromStack hstackElse

@[simp] theorem terminate_position (t : Terminator) : (b.terminate t).position = b.position := rfl

/-! ## Variables and calls -/

theorem useVar_eq {var : ℕ} {ty : Ty} (h : b.vars[var]? = some ty) :
    b.useVar var = .ok (b.ins ty (.useVar var)) := by
  unfold useVar
  rw [h]
  rfl

theorem useVar_builds {var : ℕ} {ty : Ty} (h : b.vars[var]? = some ty) :
    Builds stack b (b.ins ty (.useVar var)).2 :=
  ins_builds ⟨ty, h, makeValue_typed b ty⟩ rfl

theorem defVar_eq {var val : ℕ} (h : b.vars[var]? = some (b.valueType val)) :
    b.defVar var val = .ok (b.insert (.defVar var val)) := by
  unfold defVar
  rw [h, unwrap_some]
  show (assertThat (decide (b.valueType val = b.valueType val)) _ >>= _) = _
  rw [decide_eq_true rfl]
  rfl

theorem defVar_builds {var val : ℕ} (h : b.vars[var]? = some (b.valueType val))
    (hval : val < b.numValues) : Builds stack b (b.insert (.defVar var val)) :=
  insert_builds ⟨b.valueType val, h, typed_singleton hval⟩ fun _ ha => absurd ha List.not_mem_nil

/-- The first parameter of the first block is the vmctx. -/
def HasVmctx (b : FunctionBuilder P) (pointerType : Ty) : Prop :=
  b.entry < b.numBlocks ∧ ∃ vmctx vals, b.blockParams b.entry = vmctx :: vals
    ∧ b.Typed [vmctx] [pointerType]

theorem HasVmctx.mono {pointerType : Ty} (h : b.HasVmctx pointerType) (hb : Extends b b') :
    b'.HasVmctx pointerType := by
  obtain ⟨hlt, vmctx, vals, hparams, htyped⟩ := h
  refine ⟨hb.entry ▸ hlt.trans_le hb.blocks, vmctx, vals, ?_, htyped.mono hb⟩
  rw [hb.entry, hb.params _ hlt, hparams]

theorem callInst_spec (env : TranslationEnvironment P) {p : P} {sig : IrSignature} {ownVmctx : Bool}
    {args : List ℕ} (hvmctx : b.HasVmctx env.pointerType) (hargs : b.Typed args sig.wasmParams)
    (hsig : sig.params = env.pointerType :: env.pointerType :: sig.wasmParams)
    (hstack : b.FromStack stack args) :
    ∃ results b', env.callInst b p sig ownVmctx args = .ok (results, b') ∧ Builds stack b b'
      ∧ b'.Typed results sig.returns ∧ b'.position = b.position ∧ b'.numBlocks = b.numBlocks := by
  obtain ⟨-, vmctx, vals, hparams, htyped⟩ := hvmctx
  have hcaller : TranslationEnvironment.callerVmctx b = .ok vmctx := by
    unfold TranslationEnvironment.callerVmctx
    rw [hparams]
    rfl
  -- the vmctx of the callee
  obtain ⟨callee, b1, hb1, hcallee, hbuilds, hpos, hnum⟩ : ∃ callee b1,
      (if ownVmctx then (vmctx, b) else b.ins env.pointerType (.calleeVmctx p)) = (callee, b1)
        ∧ b1.Typed [callee] [env.pointerType] ∧ Builds stack b b1 ∧ b1.position = b.position
        ∧ b1.numBlocks = b.numBlocks := by
    cases ownVmctx with
    | true => exact ⟨vmctx, b, rfl, htyped, .refl _ _, rfl, rfl⟩
    | false => exact ⟨_, _, rfl, ins_typed _ _ _, ins_builds trivial rfl, rfl, rfl⟩
  obtain ⟨hext, hresults, hnum', -, hpos'⟩ := makeValues_spec sig.returns b1
  have hext' := hbuilds.toExtends.trans hext
  have hok : ClifInst.Ok (b1.makeValues sig.returns).2
      (.call p sig (callee :: vmctx :: args) (b1.makeValues sig.returns).1) := by
    refine ⟨?_, hresults⟩
    rw [hsig]
    exact (hcallee.mono hext).append ((htyped.mono hext').append (hargs.mono hext'))
  refine ⟨_, _, ?_, hbuilds.trans ((makeValues_builds b1 sig.returns).trans (insert_builds hok ?_)),
    hresults.mono (insert_extends _ _), hpos'.trans hpos, hnum'.trans hnum⟩
  · unfold TranslationEnvironment.callInst
    rw [hcaller]
    dsimp only [bind, Except.bind]
    rw [hb1]
    rfl
  · intro args' ha
    rw [List.mem_singleton.1 ha]
    exact hstack.mono hext'

end Builds

end FunctionBuilder

end K23VM.Cranelift
