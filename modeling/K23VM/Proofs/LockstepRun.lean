import K23VM.Proofs.Compiler
import K23VM.Proofs.LockstepUnreached

/-!
# A body in lockstep

What one operator of a body does, whether it is reached or not, and from it what all of them do.  A
`try_table` that is not reached is the exception: the validator opens a frame and the translator does
not.
-/

namespace K23VM.Cranelift

open Wasmparser FunctionBuilder FuncTranslationState FuncValidator

/-! ## One operator -/

section Operator

variable {Q : Type} {env : TranslationEnvironment Q} {sig : Signature Q}
  {t t' : FuncTranslationState Q} {v v' : FuncValidator} {results : List ValType}
  {bases : List (List ℕ)}

/-- What an operator does to the translator, and what the end of a frame leaves. -/
structure Steps (env : TranslationEnvironment Q) (results : List ValType) (bases : List (List ℕ))
    (t : FuncTranslationState Q) (v : FuncValidator) (op : Operator Q) (v' : FuncValidator)
    (t' : FuncTranslationState Q) : Prop where
  simulates : Simulates env results (nextBases env.resources t.reachable t.stack op bases) t v' t'
  closes : op = .end_ → LeavesResults bases v.control t'

theorem Simulates.steps {op : Operator Q} (h : Simulates env results bases t v' t')
    (hopens : op.opens = 0) (hcloses : op.closes = 0) : Steps env results bases t v op v' t' := by
  refine ⟨?_, ?_⟩
  · unfold nextBases
    rwa [if_neg (by rw [hopens]; decide), hcloses]
  · rintro rfl
    cases hcloses

theorem Simulates.steps_opens {op : Operator Q}
    (h : Simulates env results (nextBases env.resources t.reachable t.stack op bases) t v' t')
    (hopens : op.opens = 1) : Steps env results bases t v op v' t' := by
  refine ⟨h, ?_⟩
  rintro rfl
  cases hopens

theorem Unreached.steps_opens {op : Operator Q} (h : Unreached env results bases t v)
    (hs : Simulates env results (t.stack :: bases) t v' t') (hopens : op.opens = 1) :
    Steps env results bases t v op v' t' := by
  refine Simulates.steps_opens ?_ hopens
  rwa [unreached_nextBases h hopens]

/-- A fault of what the translator asks for, or of its check that the current block can be reached. -/
def TranslationFault (env : TranslationEnvironment Q) (sig : Signature Q) (b : FunctionBuilder Q)
    (op : Operator Q) (e : Fault) : Prop :=
  EnvFault env sig op e ∨ env.debug = true ∧ b.isUnreachable = true
    ∧ e = .panic "assertion failed: !builder.is_unreachable()"

theorem translationFault_of_assert {b : FunctionBuilder Q} {op : Operator Q} {e : Fault}
    (h : debugAssert env.debug (!b.isUnreachable) "assertion failed: !builder.is_unreachable()"
      = .error e) : TranslationFault env sig b op e := by
  obtain ⟨hdebug, hcond, he⟩ := debugAssert_eq_error h
  rw [Bool.not_eq_false'] at hcond
  exact .inr ⟨hdebug, hcond, he⟩

theorem reached_steps {op : Operator Q} (h : Reached env results bases t v)
    (hok : OperatorOk env sig op) (hplain : ∀ p, op ≠ .plain p) (hsupported : op.isUnsupported = false)
    (hstep : step env.resources sig v op = .ok v') :
    Yields (EnvFault env sig op) (Steps env results bases t v op v') (env.translateReachableOperator t op) := by
  cases op with
  | unreachable => exact (simulates_unreachable h hstep).mono fun _ hs => hs.steps rfl rfl
  | nop => exact (simulates_nop h hstep).mono fun _ hs => hs.steps rfl rfl
  | drop => exact (simulates_drop h hstep).mono fun _ hs => hs.steps rfl rfl
  | select ty => exact (simulates_select h hstep).mono fun _ hs => hs.steps rfl rfl
  | block bt => exact (simulates_block h hstep).mono fun _ hs => hs.steps_opens rfl
  | loop bt => exact (simulates_loop h hstep).mono fun _ hs => hs.steps_opens rfl
  | if_ bt => exact (simulates_if h hstep).mono fun _ hs => hs.steps_opens rfl
  | else_ => exact (simulates_else h hstep).mono fun _ hs => hs.steps rfl rfl
  | end_ => exact (simulates_end h hstep).mono fun _ hs => ⟨hs.1, fun _ => hs.2⟩
  | br depth => exact (simulates_br h hstep).mono fun _ hs => hs.steps rfl rfl
  | brIf depth => exact (simulates_brIf h hstep).mono fun _ hs => hs.steps rfl rfl
  | brTable depths default => exact (simulates_brTable h hstep).mono fun _ hs => hs.steps rfl rfl
  | return_ => exact (simulates_return h hstep).mono fun _ hs => hs.steps rfl rfl
  | localGet i => exact (simulates_localGet h hstep).mono fun _ hs => hs.steps rfl rfl
  | localSet i => exact (simulates_localSet h hstep).mono fun _ hs => hs.steps rfl rfl
  | localTee i => exact (simulates_localTee h hstep).mono fun _ hs => hs.steps rfl rfl
  | refIsNull => exact (simulates_refIsNull h hstep).mono fun _ hs => hs.steps rfl rfl
  | refAsNonNull => exact (simulates_refAsNonNull h hstep).mono fun _ hs => hs.steps rfl rfl
  | brOnNull depth => exact (simulates_brOnNull h hstep).mono fun _ hs => hs.steps rfl rfl
  | brOnNonNull depth => exact (simulates_brOnNonNull h hstep).mono fun _ hs => hs.steps rfl rfl
  | call p => exact (simulates_call h hok hstep).mono fun _ hs => hs.steps rfl rfl
  | callIndirect p => exact (simulates_callIndirect h hok hstep).mono fun _ hs => hs.steps rfl rfl
  | returnCall p => exact (returnCall_faults h hok hstep).mono fun _ hfalse => hfalse.elim
  | returnCallIndirect p => exact (returnCallIndirect_faults h hok hstep).mono fun _ hfalse => hfalse.elim
  | brOnCast | brOnCastFail | tryTable | throw | throwRef => cases hsupported
  | plain p => exact absurd rfl (hplain p)

theorem unreached_steps {op : Operator Q} (h : Unreached env results bases t v)
    (htry : ∀ tt, op ≠ .tryTable tt) (hstep : step env.resources sig v op = .ok v') :
    Yields (EnvFault env sig op) (Steps env results bases t v op v')
      (env.translateUnreachableOperator t op) := by
  cases hop : op.isStructured with
  | false =>
    have hsimple : Steps env results bases t v op v' t := by
      have hs : Simulates env results bases t v' t :=
        ⟨.refl _ _, fun _ => .dead h.reachable (h.dead.simple hop hstep)⟩
      cases op with
      | block | loop | if_ | else_ | end_ | tryTable => cases hop
      | _ => exact hs.steps rfl rfl
    cases op with
    | block | loop | if_ | else_ | end_ | tryTable => cases hop
    | _ => exact hsimple
  | true =>
    cases op with
    | block bt | loop bt =>
      exact (unreached_block h (stepOpen_cases hstep) (by decide)).mono fun _ hs =>
        h.steps_opens hs rfl
    | if_ bt =>
      exact (unreached_if h hstep).mono fun _ hs => h.steps_opens hs rfl
    | else_ => exact (unreached_else h hstep).mono fun _ hs => hs.steps rfl rfl
    | end_ => exact (unreached_end h hstep).mono fun _ hs => ⟨hs.1, fun _ => hs.2⟩
    | tryTable tt => exact absurd rfl (htry tt)
    | _ => cases hop

/-- The relation before an operator, which is not behind the end of the body. -/
structure InStep (env : TranslationEnvironment Q) (results : List ValType) (bases : List (List ℕ))
    (t : FuncTranslationState Q) (v : FuncValidator) : Prop where
  function : FunctionOk env results t.builder v
  control : v.control ≠ []
  fits : t.stack.length < 2 ^ 64
  lockstep : Lockstep env results bases t v

theorem operator_steps {op : Operator Q} (henv : TypesOk env) (h : InStep env results bases t v)
    (hok : t.reachable = true → OperatorOk env sig op) (htry : ∀ tt, op ≠ .tryTable tt)
    (hstep : step env.resources sig v op = .ok v') :
    Fallible.Yields (TranslationFault env sig t.builder op) (Steps env results bases t v op v')
      (env.translateOperator t op) := by
  have hfault : ∀ e, EnvFault env sig op e → TranslationFault env sig t.builder op e := fun _ he => .inl he
  unfold TranslationEnvironment.translateOperator
  cases h.lockstep with
  | done _ hcontrol => exact absurd hcontrol h.control
  | dead hreachable hdead =>
    rw [if_pos (by rw [hreachable]; rfl)]
    have hunreached : Unreached env results bases t v := ⟨henv, h.function, hreachable, h.fits, hdead⟩
    exact Yields.lift ((unreached_steps hunreached htry hstep).weaken hfault)
  | live hreachable hpos hlive =>
    rw [if_neg (by rw [hreachable]; decide)]
    have hreached : Reached env results bases t v :=
      ⟨henv, h.function, hreachable, hpos, h.fits, hlive⟩
    refine fallible_yields_bind (fun e he => translationFault_of_assert (fallible_lift_eq_error he))
      fun _ _ => ?_
    cases op with
    | plain p =>
      refine ((simulates_plain hreached (hok hreachable) hstep).mono fun _ hs => ?_).weaken hfault
      exact Simulates.steps hs rfl rfl
    | brOnCast | brOnCastFail | tryTable | throw | throwRef =>
      intro t' ht'
      cases ht'
    | _ =>
      exact Yields.lift ((reached_steps hreached (hok hreachable) (fun _ hp => nomatch hp) rfl
        hstep).weaken hfault)

theorem Lockstep.congr (h : Lockstep env results bases t v) (hops : v'.operands = v.operands)
    (hc : v'.control = v.control) : Lockstep env results bases t v' := by
  cases h with
  | live hreachable hpos hlive => exact .live hreachable hpos (hlive.congr hops hc)
  | dead hreachable hdead => exact .dead hreachable (by rwa [hops, hc])
  | done hframes hcontrol hoperands hstack =>
    exact .done hframes (hc.trans hcontrol) (hops.trans hoperands) hstack

/-- Where all frames are closed the relation is the one at the end. -/
theorem Lockstep.done_of_control (h : Lockstep env results bases t v) (hc : v.control = []) :
    t.controlStack = [] ∧ if t.reachable then t.builder.position < t.builder.numBlocks
      ∧ Holds env t.builder results t.stack else t.stack = [] := by
  cases h with
  | live _ _ hlive =>
    obtain ⟨_, _, _, _, _, -, hc', -⟩ := hlive.cases
    rw [hc] at hc'
    cases hc'
  | dead _ hdead =>
    rw [hc] at hdead
    generalize t.controlStack = frames at hdead
    cases hdead
  | done hframes _ _ hstack => exact ⟨hframes, hstack⟩

theorem FunctionOk.step {b b' : FunctionBuilder Q} (h : FunctionOk env results b v)
    (hb : Extends b b') (hkeeps : StepKeeps v v') (hne : v.control ≠ []) :
    FunctionOk env results b' v' where
  locals i ty hty := by
    rw [hkeeps.locals] at hty
    obtain ⟨type, hvar, htype⟩ := h.locals i ty hty
    exact ⟨type, hb.vars i type hvar, htype⟩
  returns := by
    rw [hb.returns]
    exact h.returns
  outermost g' hg' := by
    obtain ⟨g, hg, hty⟩ := hkeeps.outermost hne g' hg'
    rw [← hty]
    exact h.outermost g hg
  vmctx := h.vmctx.mono hb

end Operator

/-! ## Behind the end of a body -/

section Validates

variable {P : Type} {r : WasmModuleResources} {sig : Signature P} {v v' : FuncValidator}

/-- The rest of a body is valid, and it ends there. -/
def Validates (r : WasmModuleResources) (sig : Signature P) (v : FuncValidator)
    (ops : List (Operator P)) : Prop :=
  ∃ v', ops.foldlM (FuncValidator.op r sig) v = .ok v' ∧ v'.finish = .ok ()

theorem op_cases {op : Operator P} (h : FuncValidator.op r sig v op = .ok v') :
    ∃ v1, step r sig v op = .ok v1 ∧ v' = { v1 with offset := v1.offset + 1 } := by
  obtain ⟨v1, h1, h⟩ := bind_eq_ok.1 h
  exact ⟨v1, h1, (Except.ok.inj h).symm⟩

theorem validates_cons {op : Operator P} {ops : List (Operator P)} (h : Validates r sig v (op :: ops)) :
    ∃ v1, FuncValidator.op r sig v op = .ok v1 ∧ Validates r sig v1 ops := by
  obtain ⟨v', hrun, hfinish⟩ := h
  rw [List.foldlM_cons] at hrun
  obtain ⟨v1, h1, hrun⟩ := bind_eq_ok.1 hrun
  exact ⟨v1, h1, v', hrun, hfinish⟩

/-- Where the outermost frame was closed the body ends at once. -/
theorem Validates.eq_nil {k : ℕ} : ∀ {ops : List (Operator P)} {v : FuncValidator},
    Validates r sig v ops → v.endWhichEmptiedControl = some k → k < v.offset →
      v.offset = k + 1 ∧ ops = []
  | [], v, ⟨v', hrun, hfinish⟩, hended, _ => by
    obtain rfl := Except.ok.inj hrun
    unfold finish at hfinish
    rw [hended] at hfinish
    have hoffset := checkThat_eq_ok.1 hfinish
    rw [Bool.and_eq_true, beq_iff_eq] at hoffset
    exact ⟨hoffset.2, rfl⟩
  | op :: ops, v, h, hended, hlt => by
    obtain ⟨v1, h1, hrest⟩ := validates_cons h
    obtain ⟨v2, h2, rfl⟩ := op_cases h1
    have hkeeps := step_keeps h2
    have hended2 : v2.endWhichEmptiedControl = some k := by
      rcases hkeeps.ended with heq | ⟨hnone, -⟩
      · exact heq.trans hended
      · rw [hended] at hnone
        cases hnone
    have hv2 := hkeeps.offset
    obtain ⟨hoffset, -⟩ := hrest.eq_nil hended2 (show k < v2.offset + 1 by omega)
    dsimp only at hoffset
    omega

end Validates

/-! ## A body -/

section Body

variable {P : Type}

/-- The translator and the validator between two operators, with the values below each frame. -/
structure BodyState (P : Type) where
  validator : FuncValidator
  state : FuncTranslatorState
  builder : FunctionBuilder (P × List Entity)
  below : List (List ℕ)

def BodyState.translation (c : BodyState P) : FuncTranslationState (P × List Entity) :=
  c.state.withBuilder c.builder

variable (env : FunctionEnvironment P) (sig : Signature P)

/-- An operator is translated and then validated; the stack fits in memory. -/
structure BodyStep (c : BodyState P) (op : Operator P) (c' : BodyState P) : Prop where
  translates : env.translateOperator c.state c.builder op
    = (.ok (.ok (c'.state, c'.builder)) : Except Fault (Except Error _))
  validates : FuncValidator.op env.translation.resources sig c.validator op = .ok c'.validator
  below : c'.below
    = nextBases env.translation.resources c.state.reachable c.state.stack op c.below
  fits : c'.state.stack.length < 2 ^ 64

inductive Translates : BodyState P → List (Operator P) → BodyState P → Prop
  | nil (c : BodyState P) : Translates c [] c
  | cons {c c₁ c' : BodyState P} {op : Operator P} {ops : List (Operator P)}
    (head : BodyStep env sig c op c₁) (tail : Translates c₁ ops c') : Translates c (op :: ops) c'

/-- The plain operators and the calls. -/
def Asks (op : Operator P) (p : P) : Prop := op = .plain p ∨ op.Calls p ∨ op.CallsIndirect p

/-- A fault of what the code asks of the environment for a valid operator, or of the check that the
current block can be reached. -/
def AsksFault (b : FunctionBuilder (P × List Entity)) (op : Operator P) (e : Fault) : Prop :=
  (∃ entities, TranslationFault env.translation (fun q => sig q.1) b (op.map fun p => (p, entities)) e)
    ∨ ∃ (p : P) (ty : FuncType) (s : FuncTranslatorState) (index : EntityIndex),
      Asks op p ∧ sig p = some ty ∧ index ∈ env.entities p ∧ s.getEntity env b index = .error e

variable {env sig} {results : List ValType} {c c' : BodyState P} {v' : FuncValidator}

theorem checkCatch_map {r : WasmModuleResources} (entities : List Entity) (v : FuncValidator)
    (c : Catch P) :
    checkCatch r (fun q : P × List Entity => sig q.1) v (c.map fun p => (p, entities))
      = checkCatch r sig v c := by
  cases c <;> rfl

theorem step_map {r : WasmModuleResources} (entities : List Entity) (op : Operator P)
    (v : FuncValidator) :
    step r (fun q : P × List Entity => sig q.1) v (op.map fun p => (p, entities)) = step r sig v op := by
  cases op with
  | tryTable t =>
    unfold step Operator.map TryTable.map
    simp only [List.forM_eq_forM, List.forM_map, checkCatch_map]
  | _ => rfl

theorem takenBy_map {Q : Type} (r : WasmModuleResources) (f : P → Q) (op : Operator P) :
    r.takenBy (op.map f) = r.takenBy op := by
  cases op <;> rfl

theorem nextBases_map {Q : Type} (r : WasmModuleResources) (reachable : Bool) (stack : List ℕ)
    (f : P → Q) (op : Operator P) (bases : List (List ℕ)) :
    nextBases r reachable stack (op.map f) bases = nextBases r reachable stack op bases := by
  unfold nextBases valuesBelow
  rw [map_opens, map_closes, takenBy_map]

theorem getEntities_error {b : FunctionBuilder (P × List Entity)} {e : Fault} :
    ∀ {indices : List EntityIndex} {s : FuncTranslatorState},
      s.getEntities env b indices = .error e →
        ∃ (s : FuncTranslatorState), ∃ index ∈ indices, s.getEntity env b index = .error e
  | [], _, h => by cases h
  | index :: indices, s, h => by
    unfold FuncTranslatorState.getEntities at h
    rcases bind_eq_error.1 h with h | ⟨_, -, h⟩
    · exact ⟨s, index, List.mem_cons_self, h⟩
    · rcases bind_eq_error.1 h with h | ⟨_, -, h⟩
      · obtain ⟨s', index', hmem, h'⟩ := getEntities_error h
        exact ⟨s', index', List.mem_cons_of_mem _ hmem, h'⟩
      · cases h

theorem step_sig {r : WasmModuleResources} {op : Operator P} {p : P} {v : FuncValidator}
    (hop : Asks op p) (h : step r sig v op = .ok v') :
    ∃ ty, sig p = some ty := by
  rcases hop with rfl | (rfl | rfl) | (rfl | rfl)
  all_goals
    unfold step at h
    dsimp only at h
    split at h
    · cases h
    · exact ⟨_, by assumption⟩

theorem getEntities_asksFault {r : WasmModuleResources} {s : FuncTranslatorState}
    {b : FunctionBuilder (P × List Entity)} {op : Operator P} {p : P} {v : FuncValidator} {e : Fault}
    (hasks : Asks op p) (hstep : step r sig v op = .ok v')
    (h : s.getEntities env b (env.entities p) = .error e) : AsksFault env sig b op e := by
  obtain ⟨ty, hty⟩ := step_sig hasks hstep
  obtain ⟨s', index, hmem, h'⟩ := getEntities_error h
  exact .inr ⟨p, ty, s', index, hasks, hty, hmem, h'⟩

theorem withEntities_error {r : WasmModuleResources} {s : FuncTranslatorState}
    {b : FunctionBuilder (P × List Entity)} {op : Operator P} {v : FuncValidator} {e : Fault}
    (hstep : step r sig v op = .ok v') (h : env.withEntities s b op = .error e) :
    AsksFault env sig b op e := by
  unfold FunctionEnvironment.withEntities at h
  split at h
  case h_6 => cases h
  all_goals
    split_ifs at h
    · rcases bind_eq_error.1 h with h | ⟨_, -, h⟩
      · exact .inl ⟨[], translationFault_of_assert h⟩
      · rcases bind_eq_error.1 h with h | ⟨_, -, h⟩
        · exact getEntities_asksFault (by simp [Asks, Operator.Calls, Operator.CallsIndirect]) hstep h
        · cases h
    · cases h

/-! ### Entities -/

/-- What the environment makes of an index, somewhere in the code. -/
def FunctionEnvironment.Makes (env : FunctionEnvironment P) : EntityIndex → Entity → Prop
  | .signature index, .signature sig numArgs => ∃ b, env.makeIndirectSig b index = .ok (sig, numArgs)
  | .function index, .function func numArgs => ∃ b, env.makeDirectFunc b index = .ok (func, numArgs)
  | .table index, .table table => ∃ b, env.makeTable b index = .ok table
  | .memory index, .memory memory => ∃ b, env.makeMemory b index = .ok memory
  | .global index, .global global => ∃ b, env.makeGlobal b index = .ok global
  | _, _ => False

/-- The entities of a function are what the environment made of their indices. -/
structure Entities.Made (env : FunctionEnvironment P) (e : Entities) : Prop where
  signatures : ∀ index x, e.signatures.lookup index = some x → ∃ b, env.makeIndirectSig b index = .ok x
  functions : ∀ index x, e.functions.lookup index = some x → ∃ b, env.makeDirectFunc b index = .ok x
  tables : ∀ index x, e.tables.lookup index = some x → ∃ b, env.makeTable b index = .ok x
  memories : ∀ index x, e.memories.lookup index = some x → ∃ b, env.makeMemory b index = .ok x
  globals : ∀ index x, e.globals.lookup index = some x → ∃ b, env.makeGlobal b index = .ok x

theorem Entities.made_empty (env : FunctionEnvironment P) : Entities.empty.Made env :=
  ⟨nofun, nofun, nofun, nofun, nofun⟩

theorem orInsertWith_made {α β : Type} {map map' : List (ℕ × α)} {index : ℕ} {a : α}
    {make : β → ℕ → Except Fault α} {b : β}
    (hmap : ∀ i x, map.lookup i = some x → ∃ b, make b i = .ok x)
    (h : orInsertWith map index (make b index) = .ok (a, map')) :
    (∃ b, make b index = .ok a) ∧ ∀ i x, map'.lookup i = some x → ∃ b, make b i = .ok x := by
  unfold orInsertWith at h
  split at h
  next a' ha' =>
    cases h
    exact ⟨hmap _ _ ha', hmap⟩
  next =>
    obtain ⟨a', ha', h⟩ := bind_eq_ok.1 h
    cases h
    refine ⟨⟨b, ha'⟩, fun i x hx => ?_⟩
    rw [List.lookup_cons] at hx
    split at hx
    next heq =>
      cases hx
      rw [beq_iff_eq.1 heq]
      exact ⟨b, ha'⟩
    next => exact hmap i x hx

theorem getEntity_makes {s : FuncTranslatorState} {b : FunctionBuilder (P × List Entity)}
    {index : EntityIndex} {entity : Entity} {entities : Entities} (hs : s.entities.Made env)
    (h : s.getEntity env b index = .ok (entity, entities)) :
    env.Makes index entity ∧ entities.Made env := by
  cases index with
  | signature | function | table | memory | global =>
    obtain ⟨⟨x, map⟩, hx, h⟩ := bind_eq_ok.1 h
    cases h
    first
    | obtain ⟨hmakes, hmade⟩ := orInsertWith_made hs.signatures hx
      exact ⟨hmakes, { hs with signatures := hmade }⟩
    | obtain ⟨hmakes, hmade⟩ := orInsertWith_made hs.functions hx
      exact ⟨hmakes, { hs with functions := hmade }⟩
    | obtain ⟨hmakes, hmade⟩ := orInsertWith_made hs.tables hx
      exact ⟨hmakes, { hs with tables := hmade }⟩
    | obtain ⟨hmakes, hmade⟩ := orInsertWith_made hs.memories hx
      exact ⟨hmakes, { hs with memories := hmade }⟩
    | obtain ⟨hmakes, hmade⟩ := orInsertWith_made hs.globals hx
      exact ⟨hmakes, { hs with globals := hmade }⟩

theorem getEntities_makes {b : FunctionBuilder (P × List Entity)} : ∀ {indices : List EntityIndex}
    {s s' : FuncTranslatorState} {entities : List Entity}, s.entities.Made env →
      s.getEntities env b indices = .ok (entities, s') →
        List.Forall₂ env.Makes indices entities ∧ s'.entities.Made env
  | [], _, _, _, hs, h => by
    cases h
    exact ⟨.nil, hs⟩
  | index :: indices, s, s', entities, hs, h => by
    unfold FuncTranslatorState.getEntities at h
    obtain ⟨⟨entity, entities1⟩, h1, h⟩ := bind_eq_ok.1 h
    obtain ⟨⟨rest, s2⟩, h2, h⟩ := bind_eq_ok.1 h
    cases h
    obtain ⟨hmakes, hmade⟩ := getEntity_makes hs h1
    obtain ⟨hrest, hs'⟩ := getEntities_makes hmade h2
    exact ⟨.cons hmakes hrest, hs'⟩

/-- In reached code an operator gets the entities that it asks for. -/
theorem withEntities_makes {s s' : FuncTranslatorState} {b : FunctionBuilder (P × List Entity)}
    {op : Operator P} {op' : Operator (P × List Entity)} (hs : s.entities.Made env)
    (h : env.withEntities s b op = .ok (op', s')) :
    s'.entities.Made env ∧ ∃ entities, op' = op.map (fun p => (p, entities))
      ∧ (s.reachable = true → ∀ p, Asks op p → List.Forall₂ env.Makes (env.entities p) entities) := by
  unfold FunctionEnvironment.withEntities at h
  split at h
  case h_6 hplain hcall hindirect hreturn hreturnIndirect =>
    cases h
    refine ⟨hs, _, rfl, fun _ p hp => ?_⟩
    rcases hp with hp | (hp | hp) | (hp | hp)
    · exact (hplain p hp).elim
    · exact (hcall p hp).elim
    · exact (hreturn p hp).elim
    · exact (hindirect p hp).elim
    · exact (hreturnIndirect p hp).elim
  all_goals
    split_ifs at h with hreachable
    · obtain ⟨_, -, h⟩ := bind_eq_ok.1 h
      obtain ⟨⟨entities, s1⟩, h1, h⟩ := bind_eq_ok.1 h
      cases h
      obtain ⟨hmakes, hmade⟩ := getEntities_makes hs h1
      refine ⟨hmade, entities, rfl, fun _ q hq => ?_⟩
      obtain hq | (hq | hq) | (hq | hq) := hq <;> cases hq
      exact hmakes
    · cases h
      exact ⟨hs, _, rfl, fun hr => absurd hr hreachable⟩

/-! ### Steps -/

/-- What is assumed of the types of a module and of its plain operators and calls, with the entities that
the environment makes for them. -/
structure EnvironmentOk (env : FunctionEnvironment P) (sig : Signature P) : Prop where
  types : TypesOk env.translation
  operators : ∀ op entities,
    (∀ p, Asks op p → List.Forall₂ env.Makes (env.entities p) entities) →
    OperatorOk env.translation (fun q : P × List Entity => sig q.1) (op.map fun p => (p, entities))

/-- The relation between two operators of a body. -/
structure BodyState.InStep (env : FunctionEnvironment P) (results : List ValType) (c : BodyState P) : Prop
    extends Cranelift.InStep env.translation results c.below c.translation c.validator where
  made : c.state.entities.Made env

theorem BodyState.InStep.operator {op : Operator P} (henv : EnvironmentOk env sig)
    (h : c.InStep env results) (htry : ∀ tt, op ≠ .tryTable tt)
    (hstep : step env.translation.resources sig c.validator op = .ok v') :
    Fallible.Yields (AsksFault env sig c.builder op)
      (fun p => p.1.entities.Made env ∧ ∃ entities, Steps env.translation results c.below
        c.translation c.validator (op.map fun p => (p, entities)) v' (p.1.withBuilder p.2))
      (env.translateOperator c.state c.builder op) := by
  unfold FunctionEnvironment.translateOperator
  refine fallible_yields_bind (fun e he => withEntities_error hstep (fallible_lift_eq_error he)) ?_
  rintro ⟨op', s⟩ h1
  obtain ⟨hs, -⟩ := withEntities_eq_ok (fallible_lift_eq_ok h1)
  obtain ⟨hmade, entities, rfl, hmakes⟩ := withEntities_makes h.made (fallible_lift_eq_ok h1)
  have htry' : ∀ tt, op.map (fun p => (p, entities)) ≠ .tryTable tt := by
    cases op with
    | tryTable tt => exact absurd rfl (htry tt)
    | _ => exact fun tt h => nomatch h
  have hsteps := operator_steps henv.types h.toInStep
    (fun hreachable => henv.operators op entities (hmakes hreachable)) htry'
    ((step_map entities op c.validator).trans hstep)
  dsimp only
  rw [hs]
  exact (hsteps.weaken fun _ he => .inl ⟨entities, he⟩).bind fun t ht =>
    fallible_yields_pure ⟨hmade, entities, ht⟩

/-- One step of a body. -/
theorem BodyStep.steps {op : Operator P} (henv : EnvironmentOk env sig) (h : c.InStep env results)
    (htry : ∀ tt, op ≠ .tryTable tt) (hstep : BodyStep env sig c op c') :
    Builds c.state.stack c.builder c'.builder
      ∧ Lockstep env.translation results c'.below c'.translation c'.validator
      ∧ (op = .end_ → LeavesResults c.below c.validator.control c'.translation)
      ∧ (c'.validator.control ≠ [] → c'.InStep env results) := by
  obtain ⟨v1, h1, hv1⟩ := op_cases hstep.validates
  obtain ⟨hmade, entities, ⟨hbuilds, hlockstep⟩, hcloses⟩ :=
    (h.operator henv htry h1).of_ok hstep.translates
  rw [nextBases_map] at hlockstep
  have hnext : Lockstep env.translation results c'.below c'.translation c'.validator := by
    rw [hstep.below]
    exact (hlockstep hstep.fits).congr (by rw [hv1]) (by rw [hv1])
  refine ⟨hbuilds, hnext, ?_, fun hne => ⟨⟨?_, hne, hstep.fits, hnext⟩, hmade⟩⟩
  · rintro rfl
    exact hcloses rfl
  · have hfunction := FunctionOk.step h.function hbuilds.toExtends (step_keeps h1) h.control
    rw [hv1]
    exact ⟨hfunction.locals, hfunction.returns, hfunction.outermost, hfunction.vmctx⟩

/-- Between two operators of a valid body the relation holds, and behind the last one. -/
structure BodyState.Agrees (env : FunctionEnvironment P) (results : List ValType)
    (rest : List (Operator P)) (c : BodyState P) : Prop where
  lockstep : Lockstep env.translation results c.below c.translation c.validator
  inside : c.InStep env results ∧ c.validator.endWhichEmptiedControl = none
    ∨ c.validator.control = [] ∧ rest = []

theorem BodyStep.agrees {op : Operator P} {rest : List (Operator P)} (henv : EnvironmentOk env sig)
    (h : c.InStep env results) (hended : c.validator.endWhichEmptiedControl = none)
    (htry : ∀ tt, op ≠ .tryTable tt) (hstep : BodyStep env sig c op c')
    (hvalid : Validates env.translation.resources sig c'.validator rest) : c'.Agrees env results rest := by
  obtain ⟨-, hlockstep, -, hinside⟩ := hstep.steps henv h htry
  obtain ⟨v1, h1, hv1⟩ := op_cases hstep.validates
  have hkeeps := step_keeps h1
  refine ⟨hlockstep, ?_⟩
  by_cases hc : c'.validator.control = []
  · refine .inr ⟨hc, (hvalid.eq_nil (k := c.validator.offset) ?_ ?_).2⟩
    · rw [hv1] at hc ⊢
      exact hkeeps.emptied h.control hended hc
    · rw [hv1, hkeeps.offset]
      exact Nat.lt_succ_self _
  · refine .inl ⟨hinside hc, ?_⟩
    rw [hv1] at hc ⊢
    rcases hkeeps.ended with heq | ⟨-, -, hnil⟩
    · exact heq.trans hended
    · exact absurd hnil hc

/-- What the operators of a body keep. -/
structure BodyState.Keeps (c c' : BodyState P) : Prop where
  builder : Extends c.builder c'.builder
  wellTyped : c.builder.WellTyped → c'.builder.WellTyped
  locals : c'.validator.locals = c.validator.locals

theorem BodyStep.keeps {op : Operator P} (henv : EnvironmentOk env sig) (h : c.InStep env results)
    (htry : ∀ tt, op ≠ .tryTable tt) (hstep : BodyStep env sig c op c') : c.Keeps c' := by
  obtain ⟨hbuilds, -⟩ := hstep.steps henv h htry
  obtain ⟨v1, h1, hv1⟩ := op_cases hstep.validates
  refine ⟨hbuilds.toExtends, hbuilds.wellTyped, ?_⟩
  rw [hv1]
  exact (step_keeps h1).locals

theorem Translates.agrees {ops rest : List (Operator P)} (henv : EnvironmentOk env sig)
    (hrun : Translates env sig c ops c') (h : c.Agrees env results (ops ++ rest))
    (htry : ∀ tt, .tryTable tt ∉ ops)
    (hvalid : Validates env.translation.resources sig c.validator (ops ++ rest)) :
    c'.Agrees env results rest ∧ c.Keeps c' := by
  induction hrun with
  | nil c => exact ⟨h, .refl _, id, rfl⟩
  | @cons c c₁ c' op ops head _ ih =>
    obtain ⟨v1, hv1, hrest⟩ := validates_cons hvalid
    obtain rfl := Except.ok.inj (hv1.symm.trans head.validates)
    rcases h.inside with ⟨hin, hended⟩ | ⟨-, hnil⟩
    · have hop : ∀ tt, op ≠ .tryTable tt := fun tt htt => htry tt (htt ▸ List.mem_cons_self)
      have hkeeps := head.keeps henv hin hop
      obtain ⟨hagrees, hkeeps'⟩ := ih (head.agrees henv hin hended hop hrest)
        (fun tt hmem => htry tt (List.mem_cons_of_mem _ hmem)) hrest
      exact ⟨hagrees, hkeeps.builder.trans hkeeps'.builder,
        fun hc => hkeeps'.wellTyped (hkeeps.wellTyped hc), hkeeps'.locals.trans hkeeps.locals⟩
    · cases hnil

end Body

end K23VM.Cranelift
