import K23VM.Proofs.LockstepBody

/-!
# The joins of a body

The code of a valid body passes values of the types that are taken, between any two of its operators
and when it returns, as long as no `try_table` is met in code that is not reached.
-/

namespace K23VM.Cranelift

open Wasmparser FunctionBuilder FuncTranslationState FuncValidator

section Joins

variable {P : Type} (env : FunctionEnvironment P) (sig : Signature P) (results : List ValType)

/-- The code after some operators of a body, before the operators `rest`. -/
structure JoinsAgree (rest : List (Operator P)) (c : BodyState P) : Prop where
  wellTyped : c.builder.WellTyped
  returns : results.mapM env.translation.valueType = .ok c.builder.returns
  locals : ∀ (i : ℕ) (ty : ValType), c.validator.locals[i]? = some ty →
    ∃ type, c.builder.vars[i]? = some type ∧ env.translation.valueType ty = .ok type
  next : ∀ op rest', rest = op :: rest' →
    Fallible.Yields (AsksFault env sig c.builder op) (fun p => Builds c.state.stack c.builder p.2)
      (env.translateOperator c.state c.builder op)
  ended : rest = [] → c.state.reachable = true →
    ∃ args b, c.builder.bitcastWasmReturns c.state.stack = .ok (args, b)
      ∧ Builds c.state.stack c.builder (b.terminate (.return_ args))

def JoinsTyped (c₀ : BodyState P) (ops : List (Operator P)) : Prop :=
  ∀ pre rest c, ops = pre ++ rest → Translates env sig c₀ pre c → JoinsAgree env sig results rest c

variable {env sig results} {c c₀ : BodyState P} {ops pre rest : List (Operator P)}

theorem wellTyped_of_empty {b : FunctionBuilder (P × List Entity)} (h : b.numBlocks = 0) :
    b.WellTyped := by
  refine ⟨?_, ?_, ?_⟩
  all_goals
    intro block hlt
    rw [h] at hlt
    exact absurd hlt (Nat.not_lt_zero _)

/-- Between any two operators of a valid body the code is well typed, and what the next operator and the
return pass on comes from the stack, if no `try_table` is met in code that is not reached. -/
theorem joins_agree {ty : FuncType} {s₀ : FuncTranslatorState} {b₀ : FunctionBuilder (P × List Entity)}
    {params : List Ty} {locals : List (Validate (ℕ × ValType))}
    (henv : EnvironmentOk env sig) (hstart : BodyStart env.translation ty s₀ b₀ params)
    (henter : env.enterBody (bodyValidator env.translation.resources sig) s₀ b₀ params
        (FuncValidator.new ty ty.params) locals
      = (.ok (.ok (c₀.validator, c₀.state, c₀.builder)) : Except Fault (Except Error _)))
    (hbelow : c₀.below = [[]])
    (hvalid : Validates env.translation.resources sig c₀.validator ops)
    (htry : ReachesTryTables env sig c₀ ops) : JoinsTyped env sig ty.results c₀ ops := by
  obtain ⟨hbuilds, hin, hended⟩ := inStep_of_enterBody hstart henter hbelow
  rintro pre rest c rfl hrun
  obtain ⟨hagrees, hkeeps⟩ := hin.run henv hended hvalid htry hrun
  have hvalid' := hrun.validates hvalid
  have hreturns : ty.results.mapM env.translation.valueType = .ok c.builder.returns := by
    rw [hkeeps.builder.returns]
    exact hin.function.returns
  refine ⟨hkeeps.wellTyped (hbuilds.wellTyped (wellTyped_of_empty hstart.numBlocks)), hreturns, ?_, ?_, ?_⟩
  · intro i vt hvt
    rw [hkeeps.locals] at hvt
    obtain ⟨type, hvar, htype⟩ := hin.function.locals i vt hvt
    exact ⟨type, hkeeps.builder.vars i type hvar, htype⟩
  · rintro op rest' rfl
    refine (hagrees.next henv hvalid' ?_).mono fun _ hp => hp.1
    rintro tt rfl
    exact htry pre tt rest' c rfl hrun
  · rintro rfl hreachable
    obtain ⟨hpos, hholds⟩ := hagrees.holds hvalid' hreachable
    exact return_builds hreturns hholds hpos List.infix_rfl

end Joins

/-! ## The bodies of a module -/

theorem joinsTyped {m : ModuleEnvironment} {ty : FuncType} {s₀ : FuncTranslatorState}
    {b₀ : FunctionBuilder (ModuleOperator × List Entity)} {params : List Ty}
    {locals : List (Validate (ℕ × ValType))} {c₀ : BodyState ModuleOperator}
    {ops : List (Operator ModuleOperator)} (hm : m.Ok)
    (hstart : BodyStart m.environment.translation ty s₀ b₀ params)
    (henter : m.environment.enterBody
        (bodyValidator m.environment.translation.resources m.resources.signature) s₀ b₀ params
        (FuncValidator.new ty ty.params) locals
      = (.ok (.ok (c₀.validator, c₀.state, c₀.builder)) : Except Fault (Except Error _)))
    (hbelow : c₀.below = [[]])
    (hvalid : Validates m.environment.translation.resources m.resources.signature c₀.validator ops)
    (htry : ReachesTryTables m.environment m.resources.signature c₀ ops) :
    JoinsTyped m.environment m.resources.signature ty.results c₀ ops :=
  joins_agree (ModuleEnvironment.environment_ok hm) hstart henter hbelow hvalid htry

section Dispatch

theorem joinsTyped_dispatch :
    ∃ (c₀ : BodyState ModuleOperator) (s : FuncTranslatorState)
        (b : FunctionBuilder (ModuleOperator × List Entity)),
      JoinsTyped dispatchEnvironment.environment dispatchEnvironment.resources.signature [.i32] c₀
        dispatchBody
      ∧ dispatchEnvironment.environment.translateBody dispatchValidator .new
          (emptyBuilder [.I32]) [.I64, .I64, .I32] (FuncValidator.new ⟨[.i32], [.i32]⟩ [.i32])
          ⟨[], dispatchBody.map .ok, 0, 8⟩ = (.ok (.ok (s, b)) : Except Fault (Except Error _)) := by
  obtain ⟨c₀, henter, hbelow, hvalid⟩ := dispatch_enters
  obtain ⟨s, b, hbody⟩ := dispatch_translates
  exact ⟨c₀, s, b, joinsTyped dispatchEnvironment_ok dispatchStart henter hbelow hvalid
    (dispatch_reachesTryTables c₀), hbody⟩

/-- The panic of an iterator over two lists of different lengths. -/
def lengthMismatch : Fault := .panic "iterators are different in length"

theorem return_asksFault {P : Type} {env : FunctionEnvironment P} {sig : Signature P}
    {b : FunctionBuilder (P × List Entity)} {e : Fault} (h : AsksFault env sig b .return_ e) :
    e = .panic "assertion failed: !builder.is_unreachable()" := by
  rcases h with ⟨entities, hfault | ⟨-, -, he⟩⟩ | ⟨p, ty, s, index, hasks, -⟩
  · cases hfault with
    | valueType hop => rcases hop with hop | hop | hop <;> cases hop
    | callee _ h | signature _ h => rcases h with ⟨hop | hop, -⟩ | ⟨hop | hop, -⟩ <;> cases hop
    | tailCall hop => rcases hop with hop | hop <;> cases hop
    | indirectCall hop | plain hop => cases hop
  · exact he
  · rcases hasks with hop | (hop | hop) | (hop | hop) <;> cases hop

/-- The validator is in the function again behind the `try_table`, and the translator has left it: the
`return` takes the results of the block. -/
theorem return_behind_tryTable_mismatch :
    dispatchEnvironment.Ok
      ∧ BodyStart dispatchEnvironment.environment.translation ⟨[], []⟩ .new (emptyBuilder []) [.I64, .I64]
      ∧ ∃ c₀ c : BodyState ModuleOperator,
        dispatchEnvironment.environment.enterBody dispatchValidator .new (emptyBuilder []) [.I64, .I64]
            (FuncValidator.new ⟨[], []⟩ []) [.ok (1, .i32)]
          = (.ok (.ok (c₀.validator, c₀.state, c₀.builder)) : Except Fault (Except Error _))
        ∧ c₀.below = [[]]
        ∧ Validates dispatchEnvironment.environment.translation.resources
          dispatchEnvironment.resources.signature c₀.validator
          [.localGet 0, .brIf 0, .unreachable, .tryTable ⟨.empty, []⟩, .end_, .block (.type .i32), .localGet 0,
            .return_, .end_, .drop, .end_]
        ∧ Translates dispatchEnvironment.environment dispatchEnvironment.resources.signature c₀
          [.localGet 0, .brIf 0, .unreachable, .tryTable ⟨.empty, []⟩, .end_, .block (.type .i32), .localGet 0] c
        ∧ dispatchEnvironment.environment.translateOperator c.state c.builder .return_
          = (.error lengthMismatch : Except Fault (Except Error _))
        ∧ ¬ JoinsTyped dispatchEnvironment.environment dispatchEnvironment.resources.signature [] c₀
          [.localGet 0, .brIf 0, .unreachable, .tryTable ⟨.empty, []⟩, .end_, .block (.type .i32), .localGet 0,
            .return_, .end_, .drop, .end_] := by
  obtain ⟨c₀, c, henter, hbelow, hvalid, hrun, hreturn⟩ : ∃ c₀ c : BodyState ModuleOperator,
      dispatchEnvironment.environment.enterBody dispatchValidator .new (emptyBuilder []) [.I64, .I64]
          (FuncValidator.new ⟨[], []⟩ []) [.ok (1, .i32)]
        = (.ok (.ok (c₀.validator, c₀.state, c₀.builder)) : Except Fault (Except Error _))
      ∧ c₀.below = [[]]
      ∧ Validates dispatchEnvironment.environment.translation.resources
        dispatchEnvironment.resources.signature c₀.validator
        [.localGet 0, .brIf 0, .unreachable, .tryTable ⟨.empty, []⟩, .end_, .block (.type .i32), .localGet 0,
          .return_, .end_, .drop, .end_]
      ∧ Translates dispatchEnvironment.environment dispatchEnvironment.resources.signature c₀
        [.localGet 0, .brIf 0, .unreachable, .tryTable ⟨.empty, []⟩, .end_, .block (.type .i32), .localGet 0] c
      ∧ dispatchEnvironment.environment.translateOperator c.state c.builder .return_
        = (.error lengthMismatch : Except Fault (Except Error _)) := by
    exact ⟨⟨_, _, _, [[]]⟩, ⟨_, _, _, _⟩, rfl, rfl, ⟨_, rfl, rfl⟩, translates_cons rfl rfl (by decide)
      (translates_cons rfl rfl (by decide) (translates_cons rfl rfl (by decide)
      (translates_cons rfl rfl (by decide) (translates_cons rfl rfl (by decide)
      (translates_cons rfl rfl (by decide) (translates_cons rfl rfl (by decide) (.nil _))))))), rfl⟩
  refine ⟨dispatchEnvironment_ok, emptyStart, c₀, c, henter, hbelow, hvalid, hrun, hreturn, fun h => ?_⟩
  have hnext := (h _ [.return_, .end_, .drop, .end_] c rfl hrun).next .return_ _ rfl
  have hfault := return_asksFault (hnext.of_error hreturn)
  exact absurd (Fault.panic.inj hfault) (by decide)

end Dispatch

end K23VM.Cranelift
