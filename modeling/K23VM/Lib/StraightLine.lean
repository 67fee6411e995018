import Mathlib.Data.Nat.Bitwise
import Mathlib.Logic.Function.Basic
import K23VM.Lib.Fault

/-!
# Straight-line integer code

The integer fragment of a code generator's SSA language, without control flow other than traps.
Values are numbered in the order they are built and hold unsigned machine words; an instruction
either defines its value or leaves the code with a trap.  The builder numbers the values and
keeps the instructions in the order they were inserted.
-/

namespace K23VM.StraightLine

/-- The integer types. -/
inductive IntTy where
  | I8 | I32 | I64
  deriving DecidableEq, Repr

def IntTy.bits : IntTy → ℕ
  | .I8 => 8
  | .I32 => 32
  | .I64 => 64

/-- The integer comparisons. -/
inductive IntCC where
  | unsignedGreaterThan | unsignedGreaterThanOrEqual | notEqual
  deriving DecidableEq, Repr

def IntCC.holds : IntCC → ℕ → ℕ → Bool
  | .unsignedGreaterThan, x, y => y < x
  | .unsignedGreaterThanOrEqual, x, y => y ≤ x
  | .notEqual, x, y => x != y

/-- An instruction with the value it defines last; `γ` is the type of trap codes and `g` names
the machine words the code is given at run time. -/
inductive Inst (γ : Type) where
  | iconst (ty : IntTy) (imm dst : ℕ)
  | uextend (ty : IntTy) (x dst : ℕ)
  | iadd (ty : IntTy) (x y dst : ℕ)
  | uaddOverflowTrap (ty : IntTy) (x y : ℕ) (code : γ) (dst : ℕ)
  | icmp (cc : IntCC) (x y dst : ℕ)
  | globalValue (g dst : ℕ)
  | trap (code : γ)
  | trapnz (x : ℕ) (code : γ)
  | selectSpectreGuard (c x y dst : ℕ)
  deriving DecidableEq, Repr

variable {γ : Type}

/-- Whether the instruction compares two values. -/
def Inst.isIcmp : Inst γ → Bool
  | .icmp .. => true
  | _ => false

abbrev Env := ℕ → ℕ

/-- Run one instruction; the error is the trap taken. -/
def Inst.run (gv : ℕ → ℕ) (ρ : Env) : Inst γ → Except γ Env
  | .iconst ty imm dst => .ok (Function.update ρ dst (imm % 2 ^ ty.bits))
  | .uextend _ x dst => .ok (Function.update ρ dst (ρ x))
  | .iadd ty x y dst => .ok (Function.update ρ dst ((ρ x + ρ y) % 2 ^ ty.bits))
  | .uaddOverflowTrap ty x y code dst =>
    if ρ x + ρ y < 2 ^ ty.bits then .ok (Function.update ρ dst (ρ x + ρ y)) else .error code
  | .icmp cc x y dst => .ok (Function.update ρ dst (if cc.holds (ρ x) (ρ y) then 1 else 0))
  | .globalValue g dst => .ok (Function.update ρ dst (gv g))
  | .trap code => .error code
  | .trapnz x code => if ρ x = 0 then .ok ρ else .error code
  | .selectSpectreGuard c x y dst => .ok (Function.update ρ dst (if ρ c = 0 then ρ y else ρ x))

/-- Run the instructions in order, up to the first trap. -/
def run (gv : ℕ → ℕ) (ρ : Env) (code : List (Inst γ)) : Except γ Env :=
  code.foldlM (Inst.run gv) ρ

theorem run_append (gv : ℕ → ℕ) (ρ : Env) (c d : List (Inst γ)) :
    run gv ρ (c ++ d) = run gv ρ c >>= fun ρ' => run gv ρ' d := by
  simp [run, List.foldlM_append]

@[simp] theorem run_nil (gv : ℕ → ℕ) (ρ : Env) : run gv ρ ([] : List (Inst γ)) = .ok ρ := rfl

@[simp] theorem run_cons (gv : ℕ → ℕ) (ρ : Env) (i : Inst γ) (c : List (Inst γ)) :
    run gv ρ (i :: c) = i.run gv ρ >>= fun ρ' => run gv ρ' c := by
  simp [run]

/-- What is being built: the next value's number and the instructions so far. -/
structure Builder (γ : Type) where
  next : ℕ
  insts : List (Inst γ)
  deriving DecidableEq, Repr

abbrev Build (γ : Type) := StateT (Builder γ) (Except Fault)

/-- Insert an instruction that defines a fresh value. -/
def ins (mk : ℕ → Inst γ) : Build γ ℕ := fun b =>
  .ok (b.next, ⟨b.next + 1, b.insts ++ [mk b.next]⟩)

/-- Insert an instruction that defines no value. -/
def ins_ (i : Inst γ) : Build γ Unit := fun b => .ok ((), ⟨b.next, b.insts ++ [i]⟩)

/-- `m` emits `code` from any builder whose next value is `n`, returns `a` and leaves `n'` as the
next value. -/
def Emits {α : Type} (m : Build γ α) (n : ℕ) (a : α) (n' : ℕ) (code : List (Inst γ)) :
    Prop :=
  ∀ is, m ⟨n, is⟩ = .ok (a, ⟨n', is ++ code⟩)

section Emits

variable {α β : Type} {n n' n'' : ℕ} {a : α} {b : β} {c d : List (Inst γ)}

theorem emits_pure (a : α) (n : ℕ) : Emits (pure a : Build γ α) n a n [] := by
  intro is
  rw [List.append_nil]
  rfl

theorem emits_ins (mk : ℕ → Inst γ) (n : ℕ) : Emits (ins mk) n n (n + 1) [mk n] :=
  fun _ => rfl

theorem emits_ins_ (i : Inst γ) (n : ℕ) : Emits (ins_ i) n () n [i] := fun _ => rfl

theorem emits_lift {x : Except Fault α} (h : x = .ok a) (n : ℕ) :
    Emits (liftM x : Build γ α) n a n [] := by
  intro is
  subst h
  simp [liftM, monadLift, MonadLift.monadLift, StateT.lift, bind, Except.bind, pure, Except.pure]

theorem emits_bind {m : Build γ α} {f : α → Build γ β} (hm : Emits m n a n' c)
    (hf : Emits (f a) n' b n'' d) : Emits (m >>= f) n b n'' (c ++ d) := by
  intro is
  simp [bind, StateT.bind, Except.bind, hm is, hf (is ++ c)]

end Emits

end K23VM.StraightLine
