import Mathlib.Data.List.Forall2
import K23VM.Runtime.ConstEval
import K23VM.Translate.ModuleTranslator

/-!
# The values of constant expressions

Up to each of its operators, a validated expression is a sequence of expressions that have values
(`Sequence`), so that in the end it is one (`Validates.hasValue`).  The evaluator runs an expression on a
stack of untyped values and leaves the value of the expression on it (`HasValue.run`), in whatever
sequence of evaluations (`evalAll_right`).
-/

namespace K23VM

open Wasmparser (ConstOperator)

/-! ## What an expression means -/

/-- The types of the values that constants and arithmetic produce. -/
inductive NumType where
  | i32 | i64 | f32 | f64 | v128
  deriving DecidableEq, Repr

namespace NumType

def width : NumType → ℕ
  | .i32 | .f32 => 32
  | .i64 | .f64 => 64
  | .v128 => 128

/-- The getter of the type. -/
def get : (ty : NumType) → VMVal → BitVec ty.width
  | .i32, v => v.getI32
  | .i64, v => v.getI64
  | .f32, v => v.getF32
  | .f64, v => v.getF64
  | .v128, v => v.getV128

/-- The constructor of the type. -/
def make : (ty : NumType) → BitVec ty.width → VMVal
  | .i32, i => .i32 i
  | .i64, i => .i64 i
  | .f32, bits => .f32 bits
  | .f64, bits => .f64 bits
  | .v128, bits => ⟨bits⟩

end NumType

/-- The value of an expression: its operands are those of the two expressions before an operator, and
the arithmetic wraps around. -/
inductive HasValue : List ConstOperator → (ty : NumType) → BitVec ty.width → Prop where
  | i32Const (value : ℤ) : HasValue [.i32Const value] .i32 (.ofInt 32 value)
  | i64Const (value : ℤ) : HasValue [.i64Const value] .i64 (.ofInt 64 value)
  | f32Const (bits : ℕ) : HasValue [.f32Const bits] .f32 (.ofNat 32 bits)
  | f64Const (bits : ℕ) : HasValue [.f64Const bits] .f64 (.ofNat 64 bits)
  | v128Const (bits : ℕ) : HasValue [.v128Const bits] .v128 (.ofNat 128 bits)
  | i32Add {e₁ e₂ : List ConstOperator} {a b : BitVec 32} (h₁ : HasValue e₁ .i32 a)
      (h₂ : HasValue e₂ .i32 b) : HasValue (e₁ ++ e₂ ++ [.i32Add]) .i32 (a + b)
  | i32Sub {e₁ e₂ : List ConstOperator} {a b : BitVec 32} (h₁ : HasValue e₁ .i32 a)
      (h₂ : HasValue e₂ .i32 b) : HasValue (e₁ ++ e₂ ++ [.i32Sub]) .i32 (a - b)
  | i32Mul {e₁ e₂ : List ConstOperator} {a b : BitVec 32} (h₁ : HasValue e₁ .i32 a)
      (h₂ : HasValue e₂ .i32 b) : HasValue (e₁ ++ e₂ ++ [.i32Mul]) .i32 (a * b)
  | i64Add {e₁ e₂ : List ConstOperator} {a b : BitVec 64} (h₁ : HasValue e₁ .i64 a)
      (h₂ : HasValue e₂ .i64 b) : HasValue (e₁ ++ e₂ ++ [.i64Add]) .i64 (a + b)
  | i64Sub {e₁ e₂ : List ConstOperator} {a b : BitVec 64} (h₁ : HasValue e₁ .i64 a)
      (h₂ : HasValue e₂ .i64 b) : HasValue (e₁ ++ e₂ ++ [.i64Sub]) .i64 (a - b)
  | i64Mul {e₁ e₂ : List ConstOperator} {a b : BitVec 64} (h₁ : HasValue e₁ .i64 a)
      (h₂ : HasValue e₂ .i64 b) : HasValue (e₁ ++ e₂ ++ [.i64Mul]) .i64 (a * b)

/-- The types on the stack after an operator, the topmost first; none where the operator is not valid
there, or is neither a constant nor arithmetic. -/
def checkOp (ts : List NumType) : ConstOperator → Option (List NumType)
  | .i32Const _ => some (.i32 :: ts)
  | .i64Const _ => some (.i64 :: ts)
  | .f32Const _ => some (.f32 :: ts)
  | .f64Const _ => some (.f64 :: ts)
  | .v128Const _ => some (.v128 :: ts)
  | .i32Add | .i32Sub | .i32Mul =>
    match ts with
    | .i32 :: .i32 :: ts => some (.i32 :: ts)
    | _ => none
  | .i64Add | .i64Sub | .i64Mul =>
    match ts with
    | .i64 :: .i64 :: ts => some (.i64 :: ts)
    | _ => none
  | _ => none

/-- The operators are validated with one result of the type. -/
def Validates (ops : List ConstOperator) (ty : NumType) : Prop := ops.foldlM checkOp [] = some [ty]

instance (ops : List ConstOperator) (ty : NumType) : Decidable (Validates ops ty) :=
  inferInstanceAs (Decidable (_ = _))

/-- The expression as the parser gives it: its operators with their offsets, and the `end`. -/
def Wasmparser.ConstExpr.Encodes (expr : Wasmparser.ConstExpr) (ops : List ConstOperator) : Prop :=
  ∃ (offsets : List ℕ) (last : ℕ), offsets.length = ops.length
    ∧ expr = (ops.zip offsets).map .ok ++ [.ok (.end_, last)]

/-- A validated expression of one type. -/
structure TypedConstExpr where
  expr : Wasmparser.ConstExpr
  operators : List ConstOperator
  ty : NumType
  encodes : expr.Encodes operators
  validates : Validates operators ty

/-! ## Validated expressions have values -/

/-- The operators are expressions of the given types, one after the other. -/
inductive Sequence : List ConstOperator → List NumType → Prop where
  | nil : Sequence [] []
  | push {ops e : List ConstOperator} {ts : List NumType} {ty : NumType} {v : BitVec ty.width}
      (h : Sequence ops ts) (he : HasValue e ty v) : Sequence (ops ++ e) (ty :: ts)

/-- An operator makes one expression out of the last two. -/
theorem Sequence.binary {ops : List ConstOperator} {ts : List NumType} {ty : NumType}
    {op : ConstOperator} {f : BitVec ty.width → BitVec ty.width → BitVec ty.width}
    (h : Sequence ops (ty :: ty :: ts))
    (hop : ∀ {e₁ e₂ a b}, HasValue e₁ ty a → HasValue e₂ ty b → HasValue (e₁ ++ e₂ ++ [op]) ty (f a b)) :
    Sequence (ops ++ [op]) (ty :: ts) := by
  rcases h with _ | ⟨h, h₂⟩
  rcases h with _ | ⟨h, h₁⟩
  simp only [List.append_assoc]
  rw [← List.append_assoc _ _ [op]]
  exact h.push (hop h₁ h₂)

theorem Sequence.step {ops : List ConstOperator} {ts ts' : List NumType} {op : ConstOperator}
    (h : Sequence ops ts) (hc : checkOp ts op = some ts') : Sequence (ops ++ [op]) ts' := by
  unfold checkOp at hc
  split at hc
  · obtain rfl := Option.some.inj hc
    exact h.push (.i32Const _)
  · obtain rfl := Option.some.inj hc
    exact h.push (.i64Const _)
  · obtain rfl := Option.some.inj hc
    exact h.push (.f32Const _)
  · obtain rfl := Option.some.inj hc
    exact h.push (.f64Const _)
  · obtain rfl := Option.some.inj hc
    exact h.push (.v128Const _)
  · split at hc
    · obtain rfl := Option.some.inj hc
      exact h.binary .i32Add
    · cases hc
  · split at hc
    · obtain rfl := Option.some.inj hc
      exact h.binary .i32Sub
    · cases hc
  · split at hc
    · obtain rfl := Option.some.inj hc
      exact h.binary .i32Mul
    · cases hc
  · split at hc
    · obtain rfl := Option.some.inj hc
      exact h.binary .i64Add
    · cases hc
  · split at hc
    · obtain rfl := Option.some.inj hc
      exact h.binary .i64Sub
    · cases hc
  · split at hc
    · obtain rfl := Option.some.inj hc
      exact h.binary .i64Mul
    · cases hc
  · cases hc

theorem Sequence.run : ∀ {rest ops : List ConstOperator} {ts ts' : List NumType}, Sequence ops ts →
    rest.foldlM checkOp ts = some ts' → Sequence (ops ++ rest) ts'
  | [], ops, ts, ts', h, hc => by
    obtain rfl := Option.some.inj hc
    rwa [List.append_nil]
  | op :: rest, ops, ts, ts', h, hc => by
    rw [List.foldlM_cons] at hc
    obtain ⟨ts₁, h₁, hc⟩ := Option.bind_eq_some_iff.1 hc
    have := (h.step h₁).run hc
    rwa [List.append_assoc] at this

theorem Validates.hasValue {ops : List ConstOperator} {ty : NumType} (h : Validates ops ty) :
    ∃ v, HasValue ops ty v := by
  rcases Sequence.nil.run h with _ | ⟨hs, he⟩
  cases hs
  exact ⟨_, he⟩

/-! ## Running them -/

namespace VMVal

theorem getI32_i32 (i : BitVec 32) : (VMVal.i32 i).getI32 = i := by
  show ((i.signExtend 64).setWidth 128).setWidth 32 = i
  rw [BitVec.setWidth_setWidth_of_le _ (by decide)]
  ext j hj
  simp only [BitVec.getElem_setWidth, BitVec.getLsbD_signExtend]
  simp [hj, show j < 64 by omega]

theorem getI64_i64 (i : BitVec 64) : (VMVal.i64 i).getI64 = i := by
  show (i.setWidth 128).setWidth 64 = i
  simp

theorem getF32_f32 (bits : BitVec 32) : (VMVal.f32 bits).getF32 = bits := by
  show (bits.setWidth 128).setWidth 32 = bits
  simp

theorem getF64_f64 (bits : BitVec 64) : (VMVal.f64 bits).getF64 = bits := by
  show (bits.setWidth 128).setWidth 64 = bits
  simp

end VMVal

theorem NumType.get_make : ∀ (ty : NumType) (v : BitVec ty.width), ty.get (ty.make v) = v
  | .i32, i => VMVal.getI32_i32 i
  | .i64, i => VMVal.getI64_i64 i
  | .f32, bits => VMVal.getF32_f32 bits
  | .f64, bits => VMVal.getF64_f64 bits
  | .v128, _ => rfl

/-- The operators in the terms of this crate. -/
def Converts (ops : List ConstOperator) (converted : List ConstOp) : Prop :=
  List.Forall₂ (fun op c => ∀ offset, ConstOp.fromWasmparser op offset = .ok c) ops converted

theorem Converts.append {ops ops' : List ConstOperator} {cs cs' : List ConstOp} (h : Converts ops cs)
    (h' : Converts ops' cs') : Converts (ops ++ ops') (cs ++ cs') := by
  unfold Converts at *
  exact List.rel_append h h'

theorem Converts.singleton {op : ConstOperator} {c : ConstOp}
    (h : ∀ offset, ConstOp.fromWasmparser op offset = .ok c) : Converts [op] [c] :=
  .cons h .nil

theorem Converts.unique : ∀ {ops : List ConstOperator} {cs cs' : List ConstOp}, Converts ops cs →
    Converts ops cs' → cs = cs'
  | [], _, _, .nil, .nil => rfl
  | _ :: _, _, _, .cons h hs, .cons h' hs' => by
    obtain rfl := Except.ok.inj ((h 0).symm.trans (h' 0))
    rw [Converts.unique hs hs']

open ConstExprEvaluator

/-- The evaluator puts the value of the expression on its stack. -/
def Runs (ops : List ConstOperator) (ty : NumType) (v : BitVec ty.width) : Prop :=
  ∃ cs, Converts ops cs ∧ ∀ stack, cs.foldlM evalOp ⟨stack⟩ = .ok ⟨ty.make v :: stack⟩

theorem runs_const {op : ConstOperator} {c : ConstOp} {ty : NumType} {v : BitVec ty.width}
    (hc : ∀ offset, ConstOp.fromWasmparser op offset = .ok c)
    (he : ∀ ev, evalOp ev c = .ok (ev.push (ty.make v))) : Runs [op] ty v := by
  refine ⟨[c], .singleton hc, fun stack => ?_⟩
  rw [List.foldlM_cons, he]
  rfl

theorem Runs.binary {e₁ e₂ : List ConstOperator} {ty : NumType} {a b : BitVec ty.width}
    {op : ConstOperator} {c : ConstOp} {f : BitVec ty.width → BitVec ty.width → BitVec ty.width}
    (h₁ : Runs e₁ ty a) (h₂ : Runs e₂ ty b)
    (hc : ∀ offset, ConstOp.fromWasmparser op offset = .ok c)
    (he : ∀ ev, evalOp ev c = ev.binary ty.get ty.make f) : Runs (e₁ ++ e₂ ++ [op]) ty (f a b) := by
  obtain ⟨cs₁, hc₁, hr₁⟩ := h₁
  obtain ⟨cs₂, hc₂, hr₂⟩ := h₂
  refine ⟨cs₁ ++ cs₂ ++ [c], (hc₁.append hc₂).append (.singleton hc), fun stack => ?_⟩
  rw [List.foldlM_append, List.foldlM_append, hr₁]
  show (cs₂.foldlM evalOp ⟨ty.make a :: stack⟩ >>= fun ev => [c].foldlM evalOp ev) = _
  rw [hr₂]
  show (evalOp ⟨ty.make b :: ty.make a :: stack⟩ c >>= pure) = _
  rw [he]
  unfold ConstExprEvaluator.binary
  show (.ok (push ⟨stack⟩ (ty.make (f (ty.get (ty.make a)) (ty.get (ty.make b))))) : Except Fault _) = _
  rw [ty.get_make, ty.get_make]
  rfl

theorem HasValue.run {ops : List ConstOperator} {ty : NumType} {v : BitVec ty.width}
    (h : HasValue ops ty v) : Runs ops ty v := by
  induction h with
  | i32Const value => exact runs_const (fun _ => rfl) fun _ => rfl
  | i64Const value => exact runs_const (fun _ => rfl) fun _ => rfl
  | f32Const bits => exact runs_const (fun _ => rfl) fun _ => rfl
  | f64Const bits => exact runs_const (fun _ => rfl) fun _ => rfl
  | v128Const bits => exact runs_const (fun _ => rfl) fun _ => rfl
  | i32Add h₁ h₂ ih₁ ih₂ => exact ih₁.binary ih₂ (fun _ => rfl) fun _ => rfl
  | i32Sub h₁ h₂ ih₁ ih₂ => exact ih₁.binary ih₂ (fun _ => rfl) fun _ => rfl
  | i32Mul h₁ h₂ ih₁ ih₂ => exact ih₁.binary ih₂ (fun _ => rfl) fun _ => rfl
  | i64Add h₁ h₂ ih₁ ih₂ => exact ih₁.binary ih₂ (fun _ => rfl) fun _ => rfl
  | i64Sub h₁ h₂ ih₁ ih₂ => exact ih₁.binary ih₂ (fun _ => rfl) fun _ => rfl
  | i64Mul h₁ h₂ ih₁ ih₂ => exact ih₁.binary ih₂ (fun _ => rfl) fun _ => rfl

theorem HasValue.unique {ops : List ConstOperator} {ty : NumType} {v v' : BitVec ty.width}
    (h : HasValue ops ty v) (h' : HasValue ops ty v') : v = v' := by
  obtain ⟨cs, hc, hr⟩ := h.run
  obtain ⟨cs', hc', hr'⟩ := h'.run
  obtain rfl := hc.unique hc'
  have hstack := (hr []).symm.trans (hr' [])
  simp only [Except.ok.injEq, ConstExprEvaluator.mk.injEq, List.cons.injEq, and_true] at hstack
  rw [← ty.get_make v, hstack, ty.get_make]

/-! ## Sequences of evaluations -/

/-- An expression is converted as its operators are. -/
theorem fromWasmparser_encodes : ∀ {ops : List ConstOperator} {cs : List ConstOp}
    {expr : Wasmparser.ConstExpr}, Converts ops cs → expr.Encodes ops →
    ∃ escaped, ConstExpr.fromWasmparser expr = .ok (⟨cs⟩, escaped)
  | [], cs, expr, hc, ⟨offsets, last, hlen, he⟩ => by
    cases hc
    subst he
    refine ⟨[], ?_⟩
    simp [ConstExpr.fromWasmparser]
  | op :: ops, cs, expr, hc, ⟨offsets, last, hlen, he⟩ => by
    rcases hc with _ | ⟨hop, hc⟩
    rcases offsets with _ | ⟨offset, offsets⟩
    · cases hlen
    subst he
    obtain ⟨escaped, h⟩ := fromWasmparser_encodes hc ⟨offsets, last, Nat.succ.inj hlen, rfl⟩
    simp only [List.zip_cons_cons, List.map_cons, List.cons_append]
    unfold ConstExpr.fromWasmparser
    rw [if_neg (by simp), hop offset, h]
    exact ⟨_, rfl⟩

/-- Convert and evaluate expressions one after the other. -/
def ConstExprEvaluator.evalAll : ConstExprEvaluator → List Wasmparser.ConstExpr →
    Fallible Error (List VMVal × ConstExprEvaluator)
  | ev, [] => pure ([], ev)
  | ev, expr :: exprs => do
    let (expr, _) ← ConstExpr.fromWasmparser expr
    let (val, ev) ← ev.eval expr
    let (vals, ev) ← evalAll ev exprs
    pure (val :: vals, ev)

/-- The evaluator returns the value of a validated expression and has nothing left on its stack. -/
theorem eval_typed (e : TypedConstExpr) : ∃ expr escaped v,
    ConstExpr.fromWasmparser e.expr = .ok (expr, escaped)
      ∧ (⟨[]⟩ : ConstExprEvaluator).eval expr = .ok (e.ty.make v, ⟨[]⟩)
      ∧ HasValue e.operators e.ty v := by
  obtain ⟨v, hv⟩ := e.validates.hasValue
  obtain ⟨cs, hc, hr⟩ := hv.run
  obtain ⟨escaped, he⟩ := fromWasmparser_encodes hc e.encodes
  refine ⟨⟨cs⟩, escaped, v, he, ?_, hv⟩
  unfold eval
  rw [hr]
  rfl

/-- In a sequence of evaluations on one evaluator, each expression has the value it has. -/
theorem evalAll_right : ∀ exprs : List TypedConstExpr,
    ∃ vals, evalAll ⟨[]⟩ (exprs.map TypedConstExpr.expr)
        = (.ok (.ok (vals, ⟨[]⟩)) : Except Fault (Except Error _))
      ∧ List.Forall₂ (fun e val => ∀ v, HasValue e.operators e.ty v ↔ v = e.ty.get val) exprs vals
  | [] => ⟨[], rfl, .nil⟩
  | e :: exprs => by
    obtain ⟨expr, escaped, v, hconv, heval, hv⟩ := eval_typed e
    obtain ⟨vals, hvals, hall⟩ := evalAll_right exprs
    refine ⟨e.ty.make v :: vals, ?_, .cons (fun v' => ?_) hall⟩
    swap
    · rw [e.ty.get_make]
      exact ⟨fun h => h.unique hv, fun h => h ▸ hv⟩
    simp only [List.map_cons]
    unfold evalAll
    rw [hconv]
    show (liftM ((⟨[]⟩ : ConstExprEvaluator).eval expr) >>= _ : Fallible Error _) = _
    rw [heval]
    show (evalAll ⟨[]⟩ (exprs.map TypedConstExpr.expr) >>= _ : Fallible Error _) = _
    rw [fallible_ok_bind_of_eq hvals]
    rfl

section Example

/-- `(2147483647 + 1) * 3`. -/
def wrappingExpr : TypedConstExpr where
  expr := [.ok (.i32Const 2147483647, 0), .ok (.i32Const 1, 6), .ok (.i32Add, 8), .ok (.i32Const 3, 9),
    .ok (.i32Mul, 11), .ok (.end_, 12)]
  operators := [.i32Const 2147483647, .i32Const 1, .i32Add, .i32Const 3, .i32Mul]
  ty := .i32
  encodes := ⟨[0, 6, 8, 9, 11], 12, rfl, rfl⟩
  validates := rfl

/-- `7 - 2 * 5`. -/
def differenceExpr : TypedConstExpr where
  expr := [.ok (.i64Const 7, 0), .ok (.i64Const 2, 2), .ok (.i64Const 5, 4), .ok (.i64Mul, 6),
    .ok (.i64Sub, 7), .ok (.end_, 8)]
  operators := [.i64Const 7, .i64Const 2, .i64Const 5, .i64Mul, .i64Sub]
  ty := .i64
  encodes := ⟨[0, 2, 4, 6, 7], 8, rfl, rfl⟩
  validates := rfl

-- The sum wraps around, and so does the product.
example : evalAll ⟨[]⟩ [wrappingExpr.expr, differenceExpr.expr]
    = (.ok (.ok ([.i32 0x80000000, .i64 (-3)], ⟨[]⟩)) : Except Fault (Except Error _)) := rfl

example : HasValue ([.i32Const 2147483647] ++ [.i32Const 1] ++ [.i32Add] ++ [.i32Const 3] ++ [.i32Mul]) .i32
    0x80000000 :=
  .i32Mul (.i32Add (.i32Const _) (.i32Const _)) (.i32Const _)

end Example

end K23VM
