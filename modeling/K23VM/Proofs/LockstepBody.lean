import K23VM.Proofs.BodyStart
import K23VM.Proofs.PlainOperators

/-!
# The stacks of a body

The stacks of the translator between any two operators of a valid body, against those of the validator.
They agree exactly where no `try_table` is met in code that is not reached, for which the validator
opens a frame and the translator does not.
-/

namespace K23VM.Cranelift

open Wasmparser FunctionBuilder FuncTranslationState FuncValidator

/-! ## Runs of operators -/

section Runs

variable {P : Type} {env : FunctionEnvironment P} {sig : Signature P} {c c' : BodyState P}

theorem translates_append {ops ops' : List (Operator P)} :
    Translates env sig c (ops ++ ops') c'
      ↔ ∃ c₁, Translates env sig c ops c₁ ∧ Translates env sig c₁ ops' c' := by
  constructor
  · intro h
    induction ops generalizing c with
    | nil => exact ⟨c, .nil c, h⟩
    | cons op ops ih =>
      obtain - | ⟨head, tail⟩ := h
      obtain ⟨c₁, h1, h2⟩ := ih tail
      exact ⟨c₁, .cons head h1, h2⟩
  · rintro ⟨c₁, h1, h2⟩
    induction h1 with
    | nil c => exact h2
    | cons head _ ih => exact .cons head (ih h2)

theorem translates_cons {op : Operator P} {ops : List (Operator P)} {v v₁ : FuncValidator}
    {s s₁ : FuncTranslatorState} {b b₁ : FunctionBuilder (P × List Entity)} {below : List (List ℕ)}
    (htranslates : env.translateOperator s b op = (.ok (.ok (s₁, b₁)) : Except Fault (Except Error _)))
    (hvalidates : FuncValidator.op env.translation.resources sig v op = .ok v₁)
    (hfits : s₁.stack.length < 2 ^ 64)
    (tail : Translates env sig
      ⟨v₁, s₁, b₁, nextBases env.translation.resources s.reachable s.stack op below⟩ ops c') :
    Translates env sig ⟨v, s, b, below⟩ (op :: ops) c' :=
  .cons ⟨htranslates, hvalidates, rfl, hfits⟩ tail

theorem Translates.fits {ops : List (Operator P)} (hrun : Translates env sig c ops c')
    (h : c.state.stack.length < 2 ^ 64) : c'.state.stack.length < 2 ^ 64 := by
  induction hrun with
  | nil c => exact h
  | cons head _ ih => exact ih head.fits

/-- The loop over the operators of a body takes these steps. -/
theorem Translates.translateOperators {ops : List (Operator P)} (hrun : Translates env sig c ops c') :
    env.translateOperators (bodyValidator env.translation.resources sig) c.validator c.state c.builder
      (ops.map .ok)
      = (.ok (.ok (c'.validator, c'.state, c'.builder)) : Except Fault (Except Error _)) := by
  induction hrun with
  | nil c => rfl
  | @cons c c₁ c' op ops head _ ih =>
    rw [List.map_cons]
    unfold FunctionEnvironment.translateOperators
    refine fallible_bind_eq_ok.2 ⟨op, rfl, fallible_bind_eq_ok.2 ⟨_, head.translates, ?_⟩⟩
    refine fallible_bind_eq_ok.2 ⟨c₁.validator, ?_, ih⟩
    have hop : (bodyValidator env.translation.resources sig).op c.validator op = .ok c₁.validator :=
      head.validates
    rw [hop]
    rfl

/-- The steps of the loop over the operators, as long as the stack fits in memory. -/
theorem translates_of_translateOperators : ∀ {ops : List (Operator P)} {v v' : FuncValidator}
    {s s' : FuncTranslatorState} {b b' : FunctionBuilder (P × List Entity)} (below : List (List ℕ)),
    env.translateOperators (bodyValidator env.translation.resources sig) v s b (ops.map .ok)
      = (.ok (.ok (v', s', b')) : Except Fault (Except Error _)) →
    (∀ pre rest v₁ s₁ b₁, ops = pre ++ rest →
      env.translateOperators (bodyValidator env.translation.resources sig) v s b (pre.map .ok)
        = (.ok (.ok (v₁, s₁, b₁)) : Except Fault (Except Error _)) → s₁.stack.length < 2 ^ 64) →
    ∃ below', Translates env sig ⟨v, s, b, below⟩ ops ⟨v', s', b', below'⟩
  | [], v, _, s, _, b, _, below, h, _ => by
    cases h
    exact ⟨below, .nil _⟩
  | op :: ops, v, v', s, s', b, b', below, h, hfits => by
    rw [List.map_cons] at h
    unfold FunctionEnvironment.translateOperators at h
    obtain ⟨op', hop, h⟩ := fallible_bind_eq_ok.1 h
    obtain rfl := Except.ok.inj (orInvalid_eq_ok hop)
    obtain ⟨⟨s1, b1⟩, h1, h⟩ := fallible_bind_eq_ok.1 h
    obtain ⟨v1, h2, h⟩ := fallible_bind_eq_ok.1 h
    have hcons : ∀ pre x, env.translateOperators (bodyValidator env.translation.resources sig) v1 s1 b1
          (pre.map .ok) = (.ok (.ok x) : Except Fault (Except Error _)) →
        env.translateOperators (bodyValidator env.translation.resources sig) v s b
          ((op :: pre).map .ok) = (.ok (.ok x) : Except Fault (Except Error _)) := by
      intro pre x hx
      rw [List.map_cons]
      unfold FunctionEnvironment.translateOperators
      exact fallible_bind_eq_ok.2 ⟨op, rfl, fallible_bind_eq_ok.2 ⟨_, h1, fallible_bind_eq_ok.2
        ⟨v1, h2, hx⟩⟩⟩
    obtain ⟨below', hrun⟩ := translates_of_translateOperators
      (nextBases env.translation.resources s.reachable s.stack op below) h
      fun pre rest v₁ s₁ b₁ hpre hx =>
        hfits (op :: pre) rest v₁ s₁ b₁ (by rw [hpre]; rfl) (hcons pre _ hx)
    exact ⟨below', translates_cons h1 (orInvalid_eq_ok h2)
      (hfits [op] ops v1 s1 b1 rfl (hcons [] _ rfl)) hrun⟩

theorem Translates.validates {ops rest : List (Operator P)} (hrun : Translates env sig c ops c')
    (hvalid : Validates env.translation.resources sig c.validator (ops ++ rest)) :
    Validates env.translation.resources sig c'.validator rest := by
  induction hrun with
  | nil c => exact hvalid
  | cons head _ ih =>
    obtain ⟨v1, hv1, hrest⟩ := validates_cons hvalid
    obtain rfl := Except.ok.inj (hv1.symm.trans head.validates)
    exact ih hrest

/-! ## `try_table` -/

/-- Where code is not reached the translator ignores it. -/
theorem translateOperator_tryTable_unreached (tt : TryTable P) (h : c.state.reachable = false) :
    env.translateOperator c.state c.builder (.tryTable tt)
      = (.ok (.ok (c.state, c.builder)) : Except Fault (Except Error _)) := by
  obtain ⟨v, ⟨stack, controlStack, reachable, entities⟩, b, below⟩ := c
  obtain rfl : reachable = false := h
  rfl

theorem tryTable_reached {Q : Type} {env : TranslationEnvironment Q} {sig : Signature Q}
    {t : FuncTranslationState Q} (tt : TryTable Q) (h : t.reachable = true) :
    Fallible.Yields (TranslationFault env sig t.builder (.tryTable tt)) (fun _ => False)
      (env.translateOperator t (.tryTable tt)) := by
  unfold TranslationEnvironment.translateOperator
  rw [if_neg (by rw [h]; decide)]
  refine fallible_yields_bind (fun e he => translationFault_of_assert (fallible_lift_eq_error he))
    fun _ _ => ?_
  intro t' ht'
  cases ht'

/-- Where it is reached the translator does not support it. -/
theorem translateOperator_tryTable_reached (tt : TryTable P) (h : c.state.reachable = true) :
    Fallible.Yields (AsksFault env sig c.builder (.tryTable tt)) (fun _ => False)
      (env.translateOperator c.state c.builder (.tryTable tt)) := by
  have hreached : (c.state.withBuilder c.builder).reachable = true := h
  unfold FunctionEnvironment.translateOperator
  refine fallible_yields_bind (fun e he => nomatch he) ?_
  rintro ⟨op, s⟩ h1
  obtain ⟨rfl, rfl⟩ := Prod.mk.inj (Except.ok.inj (fallible_lift_eq_ok h1))
  exact ((tryTable_reached (tt.map fun p => (p, [])) hreached).weaken fun _ he => .inl ⟨[], he⟩).bind fun t ht => ht.elim

end Runs

/-! ## Lengths -/

section Length

variable {Q : Type} {env : TranslationEnvironment Q} {b : FunctionBuilder Q} {results : List ValType}
  {bases : List (List ℕ)} {stack : List ℕ} {tys : List ValType} {operands : List (Option ValType)}
  {frames : List ControlStackFrame} {control : List Frame} {t : FuncTranslationState Q}
  {v : FuncValidator}

/-- The parameters of an `if` are copied while its consequent is translated. -/
def ControlStackFrame.copied (f : ControlStackFrame) : ℕ :=
  match f.data with
  | .if_ _ _ _ none => f.numParamValues
  | _ => 0

theorem Base.dup_length {below dup : List ℕ} {f : ControlStackFrame} {g : Frame}
    (h : Base env b below dup tys f g) : dup.length = f.copied := by
  have hdup := h.dup
  unfold ControlStackFrame.copied
  cases hdata : f.data with
  | block | loop =>
    rw [hdata] at hdup
    exact congrArg List.length hdup
  | if_ _ _ _ ends =>
    rw [hdata] at hdup
    cases ends with
    | none => exact hdup.length.symm.trans h.frame.numParams.symm
    | some => exact congrArg List.length hdup

theorem Layout.length (h : Layout env b bases stack tys frames control) :
    stack.length = tys.length + (frames.map ControlStackFrame.copied).sum := by
  induction h with
  | nil => rfl
  | cons hstack htys _ hbase _ hvals ih =>
    rw [hstack, htys, List.length_append, List.length_append, List.length_append, List.map_cons,
      List.sum_cons, ih, hbase.dup_length, hvals.length]
    omega

theorem Dead.control_length (h : Dead env b stack bases operands frames control) :
    frames.length = control.length := by
  induction h with
  | top _ _ hbelow _ => exact congrArg (· + 1) hbelow.framesOk.length_eq
  | placeholder _ _ _ _ ih => exact congrArg (· + 1) ih

theorem Lockstep.control_length (h : Lockstep env results bases t v) :
    t.controlStack.length = v.control.length := by
  cases h with
  | live _ _ hlive =>
    obtain ⟨-, tys, -, hlayout⟩ := hlive
    exact hlayout.framesOk.length_eq
  | dead _ hdead => exact hdead.control_length
  | done hframes hcontrol =>
    rw [hframes, hcontrol]
    rfl

theorem Lockstep.stack_length (h : Lockstep env results bases t v) (hreachable : t.reachable = true) :
    t.stack.length = v.operands.length + (t.controlStack.map ControlStackFrame.copied).sum := by
  cases h with
  | live _ _ hlive =>
    obtain ⟨-, tys, hops, hlayout⟩ := hlive
    rw [hops, List.length_map]
    exact hlayout.length
  | dead hunreachable =>
    rw [hreachable] at hunreachable
    cases hunreachable
  | done hframes _ hoperands hstack =>
    rw [hreachable, if_pos rfl] at hstack
    rw [hframes, hoperands, List.length_map, hstack.2.length]
    rfl

end Length

/-! ## The stacks between two operators -/

section Stacks

variable {P : Type} (env : FunctionEnvironment P) (sig : Signature P) (results : List ValType)

/-- The stacks after some operators of a body, before the operators `rest`. -/
structure StacksAgree (rest : List (Operator P)) (c : BodyState P) : Prop where
  control : c.state.controlStack.length = c.validator.control.length
  operands : c.state.reachable = true → c.state.stack.length = c.validator.operands.length
    + (c.state.controlStack.map ControlStackFrame.copied).sum
  next : ∀ op rest', rest = op :: rest' →
    Fallible.Yields (AsksFault env sig c.builder op)
      (fun p => op = .end_ → LeavesResults c.below c.validator.control (p.1.withBuilder p.2))
      (env.translateOperator c.state c.builder op)
  ended : rest = [] → c.state.controlStack = []
    ∧ (c.state.reachable = true → Holds env.translation c.builder results c.state.stack)

def StacksInLockstep (c₀ : BodyState P) (ops : List (Operator P)) : Prop :=
  ∀ pre rest c, ops = pre ++ rest → Translates env sig c₀ pre c → StacksAgree env sig results rest c

/-- No `try_table` is met in code that is not reached. -/
def ReachesTryTables (c₀ : BodyState P) (ops : List (Operator P)) : Prop :=
  ∀ pre tt rest c, ops = pre ++ .tryTable tt :: rest → Translates env sig c₀ pre c →
    c.state.reachable = true

variable {env sig results} {c c₀ : BodyState P} {ops pre rest : List (Operator P)}

theorem reachesTryTables_of_not_mem (h : ∀ tt, .tryTable tt ∉ ops) :
    ReachesTryTables env sig c₀ ops := by
  rintro pre tt rest c rfl -
  exact absurd (List.mem_append_right pre List.mem_cons_self) (h tt)

/-- The next operator stops only where the environment does. -/
theorem BodyState.Agrees.next {op : Operator P} (henv : EnvironmentOk env sig)
    (h : c.Agrees env results (op :: rest))
    (hvalid : Validates env.translation.resources sig c.validator (op :: rest))
    (htry : ∀ tt, op = .tryTable tt → c.state.reachable = true) :
    Fallible.Yields (AsksFault env sig c.builder op) (fun p => Builds c.state.stack c.builder p.2
        ∧ (op = .end_ → LeavesResults c.below c.validator.control (p.1.withBuilder p.2)))
      (env.translateOperator c.state c.builder op) := by
  obtain ⟨hin, -⟩ | ⟨-, hnil⟩ := h.inside
  · by_cases hop : ∃ tt, op = .tryTable tt
    · obtain ⟨tt, rfl⟩ := hop
      exact (translateOperator_tryTable_reached tt (htry tt rfl)).mono fun _ hfalse => hfalse.elim
    · obtain ⟨v1, hv1, -⟩ := validates_cons hvalid
      obtain ⟨v2, hstep, -⟩ := op_cases hv1
      refine (hin.operator henv (fun tt hbt => hop ⟨tt, hbt⟩) hstep).mono ?_
      rintro p ⟨-, entities, hsteps⟩
      refine ⟨hsteps.simulates.1, ?_⟩
      rintro rfl
      exact hsteps.closes rfl
  · cases hnil

/-- The body ends behind the end of its outermost frame. -/
theorem BodyState.Agrees.control_nil (h : c.Agrees env results [])
    (hvalid : Validates env.translation.resources sig c.validator []) : c.validator.control = [] := by
  obtain ⟨v', hrun, hfinish⟩ := hvalid
  obtain rfl := Except.ok.inj hrun
  obtain ⟨-, hended⟩ | ⟨hcontrol, -⟩ := h.inside
  · unfold finish at hfinish
    rw [hended] at hfinish
    cases hfinish
  · exact hcontrol

/-- Behind its end the stack holds the results of the function, if that is reached. -/
theorem BodyState.Agrees.holds (h : c.Agrees env results [])
    (hvalid : Validates env.translation.resources sig c.validator [])
    (hreachable : c.state.reachable = true) :
    c.builder.position < c.builder.numBlocks ∧ Holds env.translation c.builder results c.state.stack := by
  obtain ⟨-, hstack⟩ := h.lockstep.done_of_control (h.control_nil hvalid)
  have hreachable' : c.translation.reachable = true := hreachable
  rw [hreachable', if_pos rfl] at hstack
  exact hstack

theorem BodyState.Agrees.stacksAgree (henv : EnvironmentOk env sig) (h : c.Agrees env results rest)
    (hvalid : Validates env.translation.resources sig c.validator rest)
    (htry : ∀ tt rest', rest = .tryTable tt :: rest' → c.state.reachable = true) :
    StacksAgree env sig results rest c where
  control := h.lockstep.control_length
  operands := h.lockstep.stack_length
  next := by
    rintro op rest' rfl
    refine (h.next henv hvalid fun tt hbt => htry tt rest' (by rw [hbt])).mono ?_
    exact fun _ hp => hp.2
  ended := by
    rintro rfl
    exact ⟨(h.lockstep.done_of_control (h.control_nil hvalid)).1,
      fun hreachable => (h.holds hvalid hreachable).2⟩

/-- Operators of a run are none that the translator does not support. -/
theorem ReachesTryTables.not_mem (h : ReachesTryTables env sig c₀ (pre ++ rest))
    (hrun : Translates env sig c₀ pre c) (tt : TryTable P) : .tryTable tt ∉ pre := by
  intro hmem
  obtain ⟨l, l', rfl⟩ := List.append_of_mem hmem
  obtain ⟨c₁, h1, h2⟩ := translates_append.1 hrun
  obtain - | ⟨head, -⟩ := h2
  have hreachable := h l tt (l' ++ rest) c₁ (by rw [List.append_assoc, List.cons_append]) h1
  have hyields : Fallible.Yields (AsksFault env sig c₁.builder (.tryTable tt)) (fun _ => False) _ :=
    translateOperator_tryTable_reached tt hreachable
  exact hyields.of_ok head.translates

/-- A `try_table` that is not reached takes the validator one frame further. -/
theorem translates_tryTable {tt : TryTable P} (hreachable : c.state.reachable = false)
    (hfits : c.state.stack.length < 2 ^ 64)
    (hvalid : Validates env.translation.resources sig c.validator (.tryTable tt :: rest)) :
    ∃ c', Translates env sig c [.tryTable tt] c' ∧ c'.state = c.state
      ∧ c'.validator.control.length = c.validator.control.length + 1 := by
  obtain ⟨v1, hv1, -⟩ := validates_cons hvalid
  obtain ⟨v2, hstep, hv2⟩ := op_cases hv1
  refine ⟨_, translates_cons (translateOperator_tryTable_unreached tt hreachable) hv1 hfits (.nil _),
    rfl, ?_⟩
  rw [hv2]
  exact (stepTryTable_cases hstep).length

section Start

variable {ty : FuncType} {s₀ : FuncTranslatorState} {b₀ : FunctionBuilder (P × List Entity)}
  {params : List Ty} {locals : List (Validate (ℕ × ValType))}

theorem inStep_of_enterBody (hstart : BodyStart env.translation ty s₀ b₀ params)
    (henter : env.enterBody (bodyValidator env.translation.resources sig) s₀ b₀ params
        (FuncValidator.new ty ty.params) locals
      = (.ok (.ok (c₀.validator, c₀.state, c₀.builder)) : Except Fault (Except Error _)))
    (hbelow : c₀.below = [[]]) :
    Builds [] b₀ c₀.builder ∧ c₀.InStep env ty.results ∧ c₀.validator.endWhichEmptiedControl = none := by
  obtain ⟨hbuilds, hin, hentities, hended⟩ := enterBody_spec hstart henter
  rw [← hbelow] at hin
  exact ⟨hbuilds, ⟨hin, hentities ▸ Entities.made_empty env⟩, hended⟩

/-- What is translated of a body that is accepted is such a run, as long as the stack fits in memory. -/
theorem translates_of_translateBody {position bytes : ℕ} {v₀ : FuncValidator} {s : FuncTranslatorState}
    {b : FunctionBuilder (P × List Entity)}
    (h : env.translateBody (bodyValidator env.translation.resources sig) s₀ b₀ params v₀
        ⟨locals, ops.map .ok, position, bytes⟩
      = (.ok (.ok (s, b)) : Except Fault (Except Error _))) :
    ∃ v₁ s₁ b₁, env.enterBody (bodyValidator env.translation.resources sig) s₀ b₀ params v₀ locals
        = (.ok (.ok (v₁, s₁, b₁)) : Except Fault (Except Error _))
      ∧ ((∀ pre rest v₂ s₂ b₂, ops = pre ++ rest →
          env.translateOperators (bodyValidator env.translation.resources sig) v₁ s₁ b₁ (pre.map .ok)
            = (.ok (.ok (v₂, s₂, b₂)) : Except Fault (Except Error _)) → s₂.stack.length < 2 ^ 64) →
        ∃ c', Translates env sig ⟨v₁, s₁, b₁, [[]]⟩ ops c') := by
  rw [translateBody_eq] at h
  obtain ⟨⟨v₁, s₁, b₁⟩, henter, h⟩ := fallible_bind_eq_ok.1 h
  refine ⟨v₁, s₁, b₁, henter, fun hfits => ?_⟩
  unfold FunctionEnvironment.translateFunctionBody at h
  obtain ⟨_, -, h⟩ := fallible_bind_eq_ok.1 h
  obtain ⟨⟨v₂, s₂, b₂⟩, hops, -⟩ := fallible_bind_eq_ok.1 h
  obtain ⟨below, hrun⟩ := translates_of_translateOperators [[]] hops hfits
  exact ⟨_, hrun⟩

/-- A run from the start of a body. -/
theorem BodyState.InStep.run (henv : EnvironmentOk env sig) (h : c₀.InStep env results)
    (hended : c₀.validator.endWhichEmptiedControl = none)
    (hvalid : Validates env.translation.resources sig c₀.validator (pre ++ rest))
    (htry : ReachesTryTables env sig c₀ (pre ++ rest)) (hrun : Translates env sig c₀ pre c) :
    c.Agrees env results rest ∧ c₀.Keeps c :=
  hrun.agrees henv ⟨h.lockstep, .inl ⟨h, hended⟩⟩ (htry.not_mem hrun) hvalid

/-- Between any two operators of a valid body the stacks agree, and at its end they are empty, if and
only if no `try_table` is met in code that is not reached. -/
theorem inLockstep_iff (position bytes : ℕ) (henv : EnvironmentOk env sig)
    (hstart : BodyStart env.translation ty s₀ b₀ params)
    (henter : env.enterBody (bodyValidator env.translation.resources sig) s₀ b₀ params
        (FuncValidator.new ty ty.params) locals
      = (.ok (.ok (c₀.validator, c₀.state, c₀.builder)) : Except Fault (Except Error _)))
    (hbelow : c₀.below = [[]])
    (hvalid : Validates env.translation.resources sig c₀.validator ops) :
    (StacksInLockstep env sig ty.results c₀ ops
      ∧ ∀ s b, env.translateBody (bodyValidator env.translation.resources sig) s₀ b₀ params
          (FuncValidator.new ty ty.params) ⟨locals, ops.map .ok, position, bytes⟩
          = (.ok (.ok (s, b)) : Except Fault (Except Error _)) →
        s.stack = [] ∧ s.controlStack = [])
      ↔ ReachesTryTables env sig c₀ ops := by
  obtain ⟨-, hin, hended⟩ := inStep_of_enterBody hstart henter hbelow
  constructor
  · rintro ⟨hagree, -⟩ pre tt rest c hsplit hrun
    by_contra hreachable
    rw [hsplit] at hvalid
    obtain ⟨c', hrun', hstate, hcontrol⟩ := translates_tryTable (Bool.eq_false_iff.2 hreachable)
      (hrun.fits hin.fits) (hrun.validates hvalid)
    have hsplit' : ops = (pre ++ [.tryTable tt]) ++ rest := by
      rw [hsplit, List.append_assoc]
      rfl
    have h1 := (hagree pre _ c hsplit hrun).control
    have h2 := (hagree _ rest c' hsplit' (translates_append.2 ⟨c, hrun, hrun'⟩)).control
    rw [hstate] at h2
    omega
  · intro htry
    refine ⟨fun pre rest c hsplit hrun => ?_, fun s b hbody => ?_⟩
    · subst hsplit
      obtain ⟨hagrees, -⟩ := hin.run henv hended hvalid htry hrun
      refine hagrees.stacksAgree henv (hrun.validates hvalid) ?_
      rintro tt rest' rfl
      exact htry pre tt rest' c rfl hrun
    · exact translateBody_stacks bodyValidator_lawful hbody hstart.controlStack rfl

end Start

end Stacks

/-! ## The bodies of a module -/

section Module

variable {m : ModuleEnvironment} {ty : FuncType} {s₀ : FuncTranslatorState}
  {b₀ : FunctionBuilder (ModuleOperator × List Entity)} {params : List Ty}
  {locals : List (Validate (ℕ × ValType))} {c₀ : BodyState ModuleOperator}
  {ops : List (Operator ModuleOperator)}

theorem stacksInLockstep_iff (position bytes : ℕ) (hm : m.Ok)
    (hstart : BodyStart m.environment.translation ty s₀ b₀ params)
    (henter : m.environment.enterBody
        (bodyValidator m.environment.translation.resources m.resources.signature) s₀ b₀ params
        (FuncValidator.new ty ty.params) locals
      = (.ok (.ok (c₀.validator, c₀.state, c₀.builder)) : Except Fault (Except Error _)))
    (hbelow : c₀.below = [[]])
    (hvalid : Validates m.environment.translation.resources m.resources.signature c₀.validator ops) :
    (StacksInLockstep m.environment m.resources.signature ty.results c₀ ops
      ∧ ∀ s b, m.environment.translateBody
          (bodyValidator m.environment.translation.resources m.resources.signature) s₀ b₀ params
          (FuncValidator.new ty ty.params) ⟨locals, ops.map .ok, position, bytes⟩
          = (.ok (.ok (s, b)) : Except Fault (Except Error _)) →
        s.stack = [] ∧ s.controlStack = [])
      ↔ ReachesTryTables m.environment m.resources.signature c₀ ops :=
  inLockstep_iff position bytes (ModuleEnvironment.environment_ok hm) hstart henter hbelow hvalid

end Module

/-! ## A module with a table -/

section Dispatch

/-- Two functions take a number and give one, a third takes and gives nothing, and the table holds
functions. -/
def dispatchModule : TranslatedModule where
  types := [0, 1]
  functions := [⟨0, 0⟩, ⟨0, FUNC_REF_RESERVED⟩, ⟨1, FUNC_REF_RESERVED⟩]
  tables := [⟨⟨true, ⟨false, .func⟩⟩, false, 1, some 1, false⟩]
  numEscapedFunctions := 1

def dispatchEnvironment : ModuleEnvironment where
  debug := true
  isa := ⟨.I64, 12, true⟩
  pointerType := .I64
  module := dispatchModule
  wasmTypes :=
    [⟨true, none, ⟨.func ⟨[.i32], [.i32]⟩, false⟩⟩, ⟨true, none, ⟨.func ⟨[], []⟩, false⟩⟩]
  seenTypes := []
  offsets := (VMOffsets.forModule 8 dispatchModule).toOption.get rfl
  resources :=
    { types := [some ⟨[.i32], [.i32]⟩, some ⟨[], []⟩]
      isSubtype := fun a b => a == b
      functions := [0, 0, 1]
      tables := [⟨⟨true, .abstract false .func⟩, false, 1, some 1, false⟩]
      memories := []
      globals := []
      tags := [] }
  number _ _ := 0
  memoryType := none

theorem dispatchEnvironment_ok : dispatchEnvironment.Ok where
  types := by
    refine ⟨rfl, fun {a b ty} h hty => ?_⟩
    have heq : a = b := of_decide_eq_true h
    exact heq ▸ hty
  functions i index f hindex hf := by
    match i with
    | 0 | 1 | 2 =>
      cases hindex
      cases hf
      rfl
    | i + 3 => cases hindex
  funcTypes i ty fty hty hfty := by
    match i with
    | 0 | 1 =>
      cases hty
      cases hfty
      rfl
    | i + 2 => cases hty
  globals i ty global hty _ := by cases hty

/-- A function with the given results, before it is translated. -/
def emptyBuilder (returns : List Ty) : FunctionBuilder (ModuleOperator × List Entity) :=
  ⟨0, fun _ => default, 0, fun _ => .I32, [], returns, 0, 0⟩

theorem dispatchStart : BodyStart dispatchEnvironment.environment.translation ⟨[.i32], [.i32]⟩ .new
    (emptyBuilder [.I32]) [.I64, .I64, .I32] :=
  ⟨rfl, rfl, rfl, rfl, rfl, ⟨[.i32], [.i32]⟩, rfl, rfl⟩

theorem emptyStart :
    BodyStart dispatchEnvironment.environment.translation ⟨[], []⟩ .new (emptyBuilder []) [.I64, .I64] :=
  ⟨rfl, rfl, rfl, rfl, rfl, ⟨[], []⟩, rfl, rfl⟩

abbrev dispatchValidator : BodyValidator ModuleOperator FuncValidator :=
  bodyValidator dispatchEnvironment.environment.translation.resources dispatchEnvironment.resources.signature

/-- The first function or one in the table is called, and one is added to its result. -/
def dispatchBody : List (Operator ModuleOperator) :=
  [.localGet 0, .localGet 0, .if_ (.funcType 0), .call (.call 0), .else_, .plain (.plain (.i32Const 0)),
    .callIndirect (.callIndirect 0 0), .end_, .plain (.plain (.i32Const 1)),
    .plain (.plain (.intBinary .i32 .add)), .end_]

theorem dispatch_enters : ∃ c₀ : BodyState ModuleOperator,
      dispatchEnvironment.environment.enterBody dispatchValidator .new (emptyBuilder [.I32])
          [.I64, .I64, .I32] (FuncValidator.new ⟨[.i32], [.i32]⟩ [.i32]) []
        = (.ok (.ok (c₀.validator, c₀.state, c₀.builder)) : Except Fault (Except Error _))
      ∧ c₀.below = [[]]
      ∧ Validates dispatchEnvironment.environment.translation.resources
        dispatchEnvironment.resources.signature c₀.validator dispatchBody :=
  ⟨⟨_, _, _, [[]]⟩, rfl, rfl, _, rfl, rfl⟩

theorem dispatch_translates : ∃ s b, dispatchEnvironment.environment.translateBody dispatchValidator .new
      (emptyBuilder [.I32]) [.I64, .I64, .I32] (FuncValidator.new ⟨[.i32], [.i32]⟩ [.i32])
      ⟨[], dispatchBody.map .ok, 0, 8⟩ = (.ok (.ok (s, b)) : Except Fault (Except Error _)) :=
  Prod.exists.1 (exists_of_okOrNone (by decide +kernel))

theorem dispatch_reachesTryTables (c₀ : BodyState ModuleOperator) :
    ReachesTryTables dispatchEnvironment.environment dispatchEnvironment.resources.signature c₀
      dispatchBody := by
  refine reachesTryTables_of_not_mem fun tt => ?_
  unfold dispatchBody
  simp

theorem stacksInLockstep_dispatch :
    ∃ (c₀ : BodyState ModuleOperator) (s : FuncTranslatorState)
        (b : FunctionBuilder (ModuleOperator × List Entity)),
      StacksInLockstep dispatchEnvironment.environment dispatchEnvironment.resources.signature [.i32] c₀
        dispatchBody
      ∧ dispatchEnvironment.environment.translateBody dispatchValidator .new
          (emptyBuilder [.I32]) [.I64, .I64, .I32] (FuncValidator.new ⟨[.i32], [.i32]⟩ [.i32])
          ⟨[], dispatchBody.map .ok, 0, 8⟩ = (.ok (.ok (s, b)) : Except Fault (Except Error _))
      ∧ s.stack = [] ∧ s.controlStack = [] := by
  obtain ⟨c₀, henter, hbelow, hvalid⟩ := dispatch_enters
  obtain ⟨s, b, hbody⟩ := dispatch_translates
  obtain ⟨hagree, hempty⟩ := (stacksInLockstep_iff 0 8 dispatchEnvironment_ok dispatchStart henter hbelow
    hvalid).2 (dispatch_reachesTryTables c₀)
  exact ⟨c₀, s, b, hagree, hbody, hempty s b hbody⟩

/-- The validator opens a frame for the `try_table`, and the translator has none left at the end. -/
theorem unreached_tryTable_not_inLockstep :
    dispatchEnvironment.Ok
      ∧ BodyStart dispatchEnvironment.environment.translation ⟨[], []⟩ .new (emptyBuilder []) [.I64, .I64]
      ∧ ∃ c₀ c : BodyState ModuleOperator,
        dispatchEnvironment.environment.enterBody dispatchValidator .new (emptyBuilder []) [.I64, .I64]
            (FuncValidator.new ⟨[], []⟩ []) []
          = (.ok (.ok (c₀.validator, c₀.state, c₀.builder)) : Except Fault (Except Error _))
        ∧ c₀.below = [[]]
        ∧ Validates dispatchEnvironment.environment.translation.resources
          dispatchEnvironment.resources.signature c₀.validator [.unreachable, .tryTable ⟨.empty, []⟩, .end_, .end_]
        ∧ ¬ StacksInLockstep dispatchEnvironment.environment dispatchEnvironment.resources.signature [] c₀
          [.unreachable, .tryTable ⟨.empty, []⟩, .end_, .end_]
        ∧ Translates dispatchEnvironment.environment dispatchEnvironment.resources.signature c₀
          [.unreachable, .tryTable ⟨.empty, []⟩, .end_] c
        ∧ dispatchEnvironment.environment.translateOperator c.state c.builder .end_
          = (.error (.panic "called `Option::unwrap()` on a `None` value")
            : Except Fault (Except Error _)) := by
  refine ⟨dispatchEnvironment_ok, emptyStart, ⟨_, _, _, [[]]⟩, ⟨_, _, _, _⟩, rfl, rfl, ⟨_, rfl, rfl⟩,
    fun h => ?_, translates_cons rfl rfl (by decide) (translates_cons rfl rfl (by decide)
      (translates_cons rfl rfl (by decide) (.nil _))), rfl⟩
  have hcontrol := (h [.unreachable, .tryTable ⟨.empty, []⟩] [.end_, .end_] _ rfl
    (translates_cons rfl rfl (by decide) (translates_cons rfl rfl (by decide) (.nil _)))).control
  exact absurd hcontrol (by decide)

end Dispatch

end K23VM.Cranelift
