import K23VM.Cranelift.CodeTranslator

/-!
# The height of the control stack

A translated operator opens and closes as many control frames as it does by name: `block`, `loop` and
`if` open one and `end` closes one, in code that is reached and in code that is not.
-/

namespace K23VM.Cranelift

open Wasmparser

namespace FuncTranslationState

variable {P : Type} {debug : Bool} {s s' : FuncTranslationState P}

theorem pop1_controlStack {val : ℕ} (h : s.pop1 = .ok (val, s')) : s'.controlStack = s.controlStack := by
  unfold pop1 at h
  obtain ⟨_, -, h⟩ := bind_eq_ok.1 h
  cases h
  rfl

theorem pop3_controlStack {vals : ℕ × ℕ × ℕ} (h : s.pop3 = .ok (vals, s')) :
    s'.controlStack = s.controlStack := by
  unfold pop3 at h
  obtain ⟨⟨_, s1⟩, h1, h⟩ := bind_eq_ok.1 h
  obtain ⟨⟨_, s2⟩, h2, h⟩ := bind_eq_ok.1 h
  obtain ⟨⟨_, s3⟩, h3, h⟩ := bind_eq_ok.1 h
  cases h
  rw [pop1_controlStack h3, pop1_controlStack h2, pop1_controlStack h1]

theorem popn_controlStack {n : ℕ} (h : s.popn debug n = .ok s') : s'.controlStack = s.controlStack := by
  unfold popn at h
  obtain ⟨_, -, h⟩ := bind_eq_ok.1 h
  cases h
  rfl

@[simp] theorem setBranchedTo_length (depth : ℕ) :
    (s.setBranchedTo depth).controlStack.length = s.controlStack.length := by
  unfold setBranchedTo
  exact List.length_modify _ _ _

@[simp] theorem truncateStack_controlStack (n : ℕ) :
    (s.truncateStack n).controlStack = s.controlStack := rfl

@[simp] theorem pushn_controlStack (vals : List ℕ) : (s.pushn vals).controlStack = s.controlStack := rfl

theorem pushBlock_length {destination params results : ℕ}
    (h : s.pushBlock debug destination params results = .ok s') :
    s'.controlStack.length = s.controlStack.length + 1 := by
  unfold pushBlock at h
  obtain ⟨_, -, h⟩ := bind_eq_ok.1 h
  cases h
  rfl

theorem pushLoop_length {header destination params results : ℕ}
    (h : s.pushLoop debug header destination params results = .ok s') :
    s'.controlStack.length = s.controlStack.length + 1 := by
  unfold pushLoop at h
  obtain ⟨_, -, h⟩ := bind_eq_ok.1 h
  cases h
  rfl

theorem pushIf_length {destination params results : ℕ} {elseData : ElseData} {bt : BlockType}
    (h : s.pushIf debug destination elseData params results bt = .ok s') :
    s'.controlStack.length = s.controlStack.length + 1 := by
  unfold pushIf at h
  obtain ⟨_, -, h⟩ := bind_eq_ok.1 h
  cases h
  rfl

theorem frameAt_lt {depth : ℕ} {frame : ControlStackFrame} (h : s.frameAt depth = .ok frame) :
    depth < s.controlStack.length := by
  unfold frameAt at h
  exact (List.getElem?_eq_some_iff.1 (unwrap_eq_ok.1 h)).1

theorem tail_length {frames : List ControlStackFrame} (h : 0 < frames.length) :
    frames.tail.length + 1 = frames.length := by
  rw [List.length_tail]
  exact Nat.sub_add_cancel h

/-! ## Branches -/

theorem translateBrIfArgs_length {depth : ℕ} {target : ℕ × List ℕ}
    (h : s.translateBrIfArgs debug depth = .ok (target, s')) :
    s'.controlStack.length = s.controlStack.length := by
  unfold translateBrIfArgs at h
  obtain ⟨frame, -, h⟩ := bind_eq_ok.1 h
  obtain ⟨inputs, -, h⟩ := bind_eq_ok.1 h
  cases h
  exact setBranchedTo_length depth

theorem translateBrIf_length {depth : ℕ} (h : s.translateBrIf debug depth = .ok s') :
    s'.controlStack.length = s.controlStack.length := by
  unfold translateBrIf at h
  obtain ⟨⟨val, s1⟩, h1, h⟩ := bind_eq_ok.1 h
  obtain ⟨⟨target, s2⟩, h2, h⟩ := bind_eq_ok.1 h
  cases h
  have h3 := translateBrIfArgs_length h2
  rw [pop1_controlStack h1] at h3
  exact h3

theorem brTableTargets_length : ∀ {depths : List ℕ} {s : FuncTranslationState P} {blocks : List ℕ},
    s.brTableTargets depths = .ok (blocks, s') → s'.controlStack.length = s.controlStack.length
  | [], _, _, h => by cases h; rfl
  | depth :: depths, s, _, h => by
    unfold brTableTargets at h
    obtain ⟨frame, -, h⟩ := bind_eq_ok.1 h
    obtain ⟨⟨blocks, s1⟩, h1, h⟩ := bind_eq_ok.1 h
    cases h
    exact (brTableTargets_length h1).trans (setBranchedTo_length depth)

theorem brTableJumps_length {returnCount : ℕ} :
    ∀ {dests : List (ℕ × ℕ)} {s : FuncTranslationState P},
      s.brTableJumps debug returnCount dests = .ok s' →
      s'.controlStack.length = s.controlStack.length
  | [], _, h => by cases h; rfl
  | (depth, destBlock) :: rest, s, h => by
    unfold brTableJumps at h
    obtain ⟨frame, -, h⟩ := bind_eq_ok.1 h
    obtain ⟨args, -, h⟩ := bind_eq_ok.1 h
    exact (brTableJumps_length h).trans (setBranchedTo_length depth)

theorem translateBrTable_length {targets : List ℕ} {default : ℕ}
    (h : s.translateBrTable debug targets default = .ok s') :
    s'.controlStack.length = s.controlStack.length := by
  unfold translateBrTable at h
  obtain ⟨frame, -, h⟩ := bind_eq_ok.1 h
  obtain ⟨⟨val, s1⟩, h1, h⟩ := bind_eq_ok.1 h
  rw [← pop1_controlStack h1]
  dsimp only at h
  split_ifs at h
  · obtain ⟨⟨data, s2⟩, h2, h⟩ := bind_eq_ok.1 h
    obtain ⟨frame, -, h⟩ := bind_eq_ok.1 h
    cases h
    exact (setBranchedTo_length default).trans (brTableTargets_length h2)
  · obtain ⟨s2, h2, h⟩ := bind_eq_ok.1 h
    obtain ⟨s3, h3, h⟩ := bind_eq_ok.1 h
    cases h
    have h4 := brTableJumps_length h2
    rw [← popn_controlStack h3] at h4
    exact h4

theorem jumpWith_controlStack {destination returnCount : ℕ}
    (h : s.jumpWith debug destination returnCount = .ok s') :
    s'.controlStack = s.controlStack := by
  unfold jumpWith at h
  obtain ⟨args, -, h⟩ := bind_eq_ok.1 h
  have h1 := popn_controlStack h
  exact h1

end FuncTranslationState

/-! ## Operators -/

namespace TranslationEnvironment

open FuncTranslationState

variable {P : Type} {env : TranslationEnvironment P} {s s' : FuncTranslationState P}

/-- An `else` marks its frame, and keeps the height. -/
theorem translateReachableElse_length (h : env.translateReachableOperator s .else_ = .ok s') :
    s'.controlStack.length = s.controlStack.length := by
  unfold translateReachableOperator at h
  obtain ⟨frame, -, h⟩ := bind_eq_ok.1 h
  split at h
  · obtain ⟨_, -, h⟩ := bind_eq_ok.1 h
    dsimp only at h
    split_ifs at h
    · split at h
      · obtain ⟨ty, -, h⟩ := bind_eq_ok.1 h
        obtain ⟨_, -, h⟩ := bind_eq_ok.1 h
        obtain ⟨⟨block, b⟩, -, h⟩ := bind_eq_ok.1 h
        obtain ⟨s1, h1, h⟩ := bind_eq_ok.1 h
        have h2 := congrArg List.length (jumpWith_controlStack h1)
        rw [← Except.ok.inj h]
        exact h2.trans (List.length_modify _ _ _)
      · obtain ⟨s1, h1, h⟩ := bind_eq_ok.1 h
        have h2 := congrArg List.length (jumpWith_controlStack h1)
        rw [← Except.ok.inj h]
        exact h2.trans (List.length_modify _ _ _)
    · cases h
      exact List.length_modify _ _ _
  · cases h

/-- An `end` takes its frame. -/
theorem translateReachableEnd_length (h : env.translateReachableOperator s .end_ = .ok s') :
    s'.controlStack.length + 1 = s.controlStack.length := by
  unfold translateReachableOperator at h
  obtain ⟨frame, hframe, h⟩ := bind_eq_ok.1 h
  obtain ⟨args, -, h⟩ := bind_eq_ok.1 h
  obtain ⟨size, -, h⟩ := bind_eq_ok.1 h
  cases h
  exact tail_length (frameAt_lt hframe)

theorem translateReachableIf_length {bt : BlockType}
    (h : env.translateReachableOperator s (.if_ bt) = .ok s') :
    s'.controlStack.length = s.controlStack.length + 1 := by
  unfold translateReachableOperator at h
  obtain ⟨⟨val, s1⟩, h1, h⟩ := bind_eq_ok.1 h
  obtain ⟨ty, -, h⟩ := bind_eq_ok.1 h
  obtain ⟨⟨destination, b⟩, -, h⟩ := bind_eq_ok.1 h
  rw [← pop1_controlStack h1]
  dsimp only at h
  split_ifs at h
  · obtain ⟨args, -, h⟩ := bind_eq_ok.1 h
    have h2 := pushIf_length h
    exact h2
  · obtain ⟨⟨elseBlock, b⟩, -, h⟩ := bind_eq_ok.1 h
    obtain ⟨args, -, h⟩ := bind_eq_ok.1 h
    have h2 := pushIf_length h
    exact h2

theorem translateReachableLoop_length {bt : BlockType}
    (h : env.translateReachableOperator s (.loop bt) = .ok s') :
    s'.controlStack.length = s.controlStack.length + 1 := by
  unfold translateReachableOperator at h
  obtain ⟨ty, -, h⟩ := bind_eq_ok.1 h
  obtain ⟨⟨loopBody, b⟩, -, h⟩ := bind_eq_ok.1 h
  obtain ⟨⟨next, b⟩, -, h⟩ := bind_eq_ok.1 h
  obtain ⟨args, -, h⟩ := bind_eq_ok.1 h
  obtain ⟨s1, h1, h⟩ := bind_eq_ok.1 h
  obtain ⟨s2, h2, h⟩ := bind_eq_ok.1 h
  cases h
  have h3 := pushLoop_length h1
  rw [← popn_controlStack h2] at h3
  exact h3

theorem translateCall_controlStack {p : P} (h : env.translateCall s p = .ok s') :
    s'.controlStack = s.controlStack := by
  unfold translateCall at h
  obtain ⟨callee, -, h⟩ := bind_eq_ok.1 h
  obtain ⟨signature, -, h⟩ := bind_eq_ok.1 h
  obtain ⟨args, -, h⟩ := bind_eq_ok.1 h
  obtain ⟨⟨args, b⟩, -, h⟩ := bind_eq_ok.1 h
  obtain ⟨⟨results, b⟩, -, h⟩ := bind_eq_ok.1 h
  obtain ⟨s1, h1, h⟩ := bind_eq_ok.1 h
  cases h
  have h2 := popn_controlStack h1
  exact h2

theorem translateCallIndirect_controlStack {p : P} (h : env.translateCallIndirect s p = .ok s') :
    s'.controlStack = s.controlStack := by
  unfold translateCallIndirect at h
  obtain ⟨callee, -, h⟩ := bind_eq_ok.1 h
  obtain ⟨signature, -, h⟩ := bind_eq_ok.1 h
  obtain ⟨⟨index, s1⟩, h1, h⟩ := bind_eq_ok.1 h
  obtain ⟨args, -, h⟩ := bind_eq_ok.1 h
  obtain ⟨⟨args, b⟩, -, h⟩ := bind_eq_ok.1 h
  obtain ⟨check, -, h⟩ := bind_eq_ok.1 h
  rw [← pop1_controlStack h1]
  cases check with
  | some code =>
    cases h
    rfl
  | none =>
    obtain ⟨⟨results, b⟩, -, h⟩ := bind_eq_ok.1 h
    obtain ⟨s2, h2, h⟩ := bind_eq_ok.1 h
    cases h
    have h3 := popn_controlStack h2
    exact h3

/-- A tail call ends in `todo!()`. -/
theorem translateReturnCall_ne_ok {p : P} : env.translateReturnCall s p ≠ .ok s' := by
  intro h
  unfold translateReturnCall at h
  obtain ⟨callee, -, h⟩ := bind_eq_ok.1 h
  obtain ⟨signature, -, h⟩ := bind_eq_ok.1 h
  obtain ⟨args, -, h⟩ := bind_eq_ok.1 h
  obtain ⟨_, -, h⟩ := bind_eq_ok.1 h
  cases h

theorem translateReturnCallIndirect_ne_ok {p : P} : env.translateReturnCallIndirect s p ≠ .ok s' := by
  intro h
  unfold translateReturnCallIndirect at h
  obtain ⟨callee, -, h⟩ := bind_eq_ok.1 h
  obtain ⟨signature, -, h⟩ := bind_eq_ok.1 h
  obtain ⟨_, -, h⟩ := bind_eq_ok.1 h
  obtain ⟨args, -, h⟩ := bind_eq_ok.1 h
  obtain ⟨_, -, h⟩ := bind_eq_ok.1 h
  cases h

theorem translateReachableOperator_length {op : Operator P}
    (h : env.translateReachableOperator s op = .ok s') :
    s'.controlStack.length + op.closes = s.controlStack.length + op.opens := by
  cases op with
  | unreachable | nop | plain | brOnCast | brOnCastFail | tryTable | throw | throwRef => cases h; rfl
  | returnCall => exact absurd h translateReturnCall_ne_ok
  | returnCallIndirect => exact absurd h translateReturnCallIndirect_ne_ok
  | call => exact congrArg List.length (translateCall_controlStack h)
  | callIndirect => exact congrArg List.length (translateCallIndirect_controlStack h)
  | else_ => exact translateReachableElse_length h
  | end_ => exact translateReachableEnd_length h
  | if_ => exact translateReachableIf_length h
  | loop => exact translateReachableLoop_length h
  | block =>
    unfold translateReachableOperator at h
    obtain ⟨ty, -, h⟩ := bind_eq_ok.1 h
    obtain ⟨⟨next, b⟩, -, h⟩ := bind_eq_ok.1 h
    have h1 := pushBlock_length h
    exact h1
  | drop =>
    unfold translateReachableOperator at h
    obtain ⟨⟨_, s1⟩, h1, h⟩ := bind_eq_ok.1 h
    cases h
    exact congrArg List.length (pop1_controlStack h1)
  | select =>
    unfold translateReachableOperator at h
    obtain ⟨⟨_, s1⟩, h1, h⟩ := bind_eq_ok.1 h
    cases h
    have h2 := congrArg List.length (pop3_controlStack h1)
    exact h2
  | br =>
    unfold translateReachableOperator at h
    obtain ⟨frame, -, h⟩ := bind_eq_ok.1 h
    obtain ⟨s1, h1, h⟩ := bind_eq_ok.1 h
    cases h
    exact (congrArg List.length (jumpWith_controlStack h1)).trans (setBranchedTo_length _)
  | brIf => exact translateBrIf_length h
  | brTable => exact translateBrTable_length h
  | return_ =>
    unfold translateReachableOperator at h
    obtain ⟨frame, -, h⟩ := bind_eq_ok.1 h
    obtain ⟨args, -, h⟩ := bind_eq_ok.1 h
    obtain ⟨⟨args, b⟩, -, h⟩ := bind_eq_ok.1 h
    obtain ⟨s1, h1, h⟩ := bind_eq_ok.1 h
    cases h
    have h2 := congrArg List.length (popn_controlStack h1)
    exact h2
  | localGet =>
    unfold translateReachableOperator at h
    obtain ⟨⟨val, b⟩, -, h⟩ := bind_eq_ok.1 h
    cases h
    rfl
  | localSet =>
    unfold translateReachableOperator at h
    obtain ⟨⟨val, s1⟩, h1, h⟩ := bind_eq_ok.1 h
    obtain ⟨b, -, h⟩ := bind_eq_ok.1 h
    cases h
    have h2 := congrArg List.length (pop1_controlStack h1)
    exact h2
  | localTee =>
    unfold translateReachableOperator at h
    obtain ⟨val, -, h⟩ := bind_eq_ok.1 h
    obtain ⟨b, -, h⟩ := bind_eq_ok.1 h
    cases h
    rfl
  | refIsNull =>
    unfold translateReachableOperator at h
    obtain ⟨⟨val, s1⟩, h1, h⟩ := bind_eq_ok.1 h
    cases h
    have h2 := congrArg List.length (pop1_controlStack h1)
    exact h2
  | refAsNonNull =>
    unfold translateReachableOperator at h
    obtain ⟨⟨val, s1⟩, h1, h⟩ := bind_eq_ok.1 h
    cases h
    have h2 := congrArg List.length (pop1_controlStack h1)
    exact h2
  | brOnNull =>
    unfold translateReachableOperator at h
    obtain ⟨⟨val, s1⟩, h1, h⟩ := bind_eq_ok.1 h
    obtain ⟨⟨target, s2⟩, h2, h⟩ := bind_eq_ok.1 h
    cases h
    have h3 := translateBrIfArgs_length h2
    rw [pop1_controlStack h1] at h3
    exact h3
  | brOnNonNull =>
    unfold translateReachableOperator at h
    obtain ⟨val, -, h⟩ := bind_eq_ok.1 h
    obtain ⟨⟨target, s1⟩, h1, h⟩ := bind_eq_ok.1 h
    obtain ⟨⟨_, s2⟩, h2, h⟩ := bind_eq_ok.1 h
    cases h
    have h3 := translateBrIfArgs_length h1
    have h4 := congrArg List.length (pop1_controlStack h2)
    exact h4.trans h3

theorem translateUnreachableElse_length (h : env.translateUnreachableOperator s .else_ = .ok s') :
    s'.controlStack.length = s.controlStack.length := by
  unfold translateUnreachableOperator at h
  obtain ⟨frame, -, h⟩ := bind_eq_ok.1 h
  split at h
  · obtain ⟨_, -, h⟩ := bind_eq_ok.1 h
    dsimp only at h
    split_ifs at h
    · split at h
      · obtain ⟨ty, -, h⟩ := bind_eq_ok.1 h
        obtain ⟨⟨block, b⟩, -, h⟩ := bind_eq_ok.1 h
        rw [← Except.ok.inj h]
        exact List.length_modify _ _ _
      · rw [← Except.ok.inj h]
        exact List.length_modify _ _ _
    · rw [← Except.ok.inj h]
      exact List.length_modify _ _ _
  · cases h

theorem translateUnreachableEnd_length (h : env.translateUnreachableOperator s .end_ = .ok s') :
    s'.controlStack.length + 1 = s.controlStack.length := by
  unfold translateUnreachableOperator at h
  obtain ⟨frame, hframe, h⟩ := bind_eq_ok.1 h
  obtain ⟨size, -, h⟩ := bind_eq_ok.1 h
  have hs := tail_length (frameAt_lt hframe)
  dsimp only at h
  split at h <;> split_ifs at h <;> cases h <;> exact hs

theorem translateUnreachableOperator_length {op : Operator P}
    (h : env.translateUnreachableOperator s op = .ok s') :
    s'.controlStack.length + op.closes = s.controlStack.length + op.opens := by
  cases op with
  | else_ => exact translateUnreachableElse_length h
  | end_ => exact translateUnreachableEnd_length h
  | if_ => exact pushIf_length h
  | loop | block => exact pushBlock_length h
  | _ => cases h; rfl

theorem translatePlainOperator_controlStack {p : P}
    (h : env.translatePlainOperator s p = (.ok (.ok s') : Except Fault (Except Error _))) :
    s'.controlStack = s.controlStack := by
  unfold translatePlainOperator at h
  obtain ⟨shape, -, h⟩ := fallible_bind_eq_ok.1 h
  obtain ⟨_, -, h⟩ := fallible_bind_eq_ok.1 h
  cases h
  rfl

/-- What an operator does to the height of the control stack does not depend on what is reached. -/
theorem translateOperator_length {op : Operator P}
    (h : env.translateOperator s op = (.ok (.ok s') : Except Fault (Except Error _))) :
    s'.controlStack.length + op.closes = s.controlStack.length + op.opens := by
  unfold translateOperator at h
  split_ifs at h
  · exact translateUnreachableOperator_length (fallible_lift_eq_ok h)
  · obtain ⟨_, -, h⟩ := fallible_bind_eq_ok.1 h
    split at h
    case h_1 => exact congrArg List.length (translatePlainOperator_controlStack h)
    case h_7 => exact translateReachableOperator_length (fallible_lift_eq_ok h)
    all_goals cases h

end TranslationEnvironment

end K23VM.Cranelift
