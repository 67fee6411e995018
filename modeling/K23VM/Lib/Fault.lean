import Mathlib.Data.Nat.Notation
import Mathlib.Tactic.TypeStar

/-!
# Faults

A computation that panics stops with a `Fault`.  A loop that is given a bound on its iterations
stops with `Fault.fuel` where the bound does not suffice, so that a bound that is too small can
never be mistaken for a result.
-/

namespace K23VM

/-- Why a computation stopped without a result. -/
inductive Fault where
  | panic (msg : String)
  | fuel
  deriving DecidableEq, Repr

/-- A computation that returns an error of the program, or panics on the way. -/
abbrev Fallible (ε α : Type) := ExceptT ε (Except Fault) α

/-- A result without its error, `Result::ok`. -/
def Fallible.okOrNone {ε α : Type} (x : Fallible ε α) : Except Fault (Option α) := do
  match ← x.run with
  | .ok a => pure (some a)
  | .error _ => pure none

/-- `Option::ok_or_else`. -/
def Fallible.okOr {ε α : Type} (e : ε) : Option α → Fallible ε α
  | some a => pure a
  | none => throw e

/-- A failed `unwrap`, `expect`, index or assertion. -/
abbrev panicking {α : Type*} (msg : String) : Except Fault α := .error (.panic msg)

/-- An assertion that is compiled in every build. -/
def assertThat (cond : Bool) (msg : String) : Except Fault Unit :=
  if cond then .ok () else panicking msg

/-- An assertion that is compiled only where `debug_assertions` are. -/
def debugAssert (debug cond : Bool) (msg : String) : Except Fault Unit :=
  if debug && !cond then panicking msg else .ok ()

/-- `Option::unwrap` and its relatives. -/
def unwrap {α : Type*} (msg : String) : Option α → Except Fault α
  | some a => .ok a
  | none => panicking msg

@[simp] theorem assertThat_true (msg : String) : assertThat true msg = .ok () := rfl

@[simp] theorem assertThat_false (msg : String) :
    assertThat false msg = .error (.panic msg) := rfl

@[simp] theorem debugAssert_true (debug : Bool) (msg : String) :
    debugAssert debug true msg = .ok () := by
  simp [debugAssert]

@[simp] theorem debugAssert_release (cond : Bool) (msg : String) :
    debugAssert false cond msg = .ok () := rfl

@[simp] theorem unwrap_some {α : Type*} (msg : String) (a : α) : unwrap msg (some a) = .ok a := rfl

@[simp] theorem unwrap_none {α : Type*} (msg : String) :
    unwrap msg (none : Option α) = .error (.panic msg) := rfl

theorem unwrap_eq_ok {α : Type*} {msg : String} {o : Option α} {a : α} :
    unwrap msg o = .ok a ↔ o = some a := by
  cases o <;> simp [unwrap, panicking]

theorem debugAssert_eq_ok {debug cond : Bool} {msg : String} :
    debugAssert debug cond msg = .ok () ↔ (debug = true → cond = true) := by
  cases debug <;> cases cond <;> simp [debugAssert, panicking]

theorem ite_panicking_eq_ok {α : Type*} {p : Prop} [Decidable p] {msg : String} {a b : α} :
    (if p then .ok a else panicking msg) = (.ok b : Except Fault α) ↔ p ∧ b = a := by
  by_cases h : p
  · rw [if_pos h, Except.ok.injEq, and_iff_right h]
    exact eq_comm
  · simp [h, panicking]

theorem unwrap_eq_error {α : Type*} {msg : String} {o : Option α} {e : Fault}
    (h : unwrap msg o = .error e) : e = .panic msg := by
  cases o with
  | none => exact (Except.error.inj h).symm
  | some a => cases h

theorem debugAssert_eq_error {debug cond : Bool} {msg : String} {e : Fault}
    (h : debugAssert debug cond msg = .error e) : debug = true ∧ cond = false ∧ e = .panic msg := by
  unfold debugAssert at h
  by_cases hc : (debug && !cond) = true
  · rw [if_pos hc] at h
    rw [Bool.and_eq_true, Bool.not_eq_true'] at hc
    exact ⟨hc.1, hc.2, (Except.error.inj h).symm⟩
  · rw [if_neg hc] at h
    cases h

theorem ite_panicking_eq_error {α : Type*} {p : Prop} [Decidable p] {msg : String} {a : α} {e : Fault}
    (h : (if p then .ok a else panicking msg) = (.error e : Except Fault α)) : e = .panic msg := by
  by_cases hp : p
  · rw [if_pos hp] at h
    cases h
  · rw [if_neg hp] at h
    exact (Except.error.inj h).symm

/-- A sequence has a result where its first part has one and the rest has one from there. -/
theorem bind_eq_ok {ε α β : Type} {x : Except ε α} {f : α → Except ε β} {b : β} :
    (x >>= f) = .ok b ↔ ∃ a, x = .ok a ∧ f a = .ok b := by
  cases x <;> simp [bind, Except.bind]

theorem bind_eq_error {ε α β : Type} {x : Except ε α} {f : α → Except ε β} {e : ε} :
    (x >>= f) = .error e ↔ x = .error e ∨ ∃ a, x = .ok a ∧ f a = .error e := by
  cases x <;> simp [bind, Except.bind]

theorem map_eq_ok {ε α β : Type} {x : Except ε α} {f : α → β} {b : β} :
    x.map f = .ok b ↔ ∃ a, x = .ok a ∧ f a = b := by
  cases x <;> simp [Except.map]

section Fallible

variable {ε α β : Type}

@[simp] theorem fallible_lift_ok_bind (a : α) (f : α → Fallible ε β) :
    (liftM (Except.ok a : Except Fault α) >>= f) = f a := rfl

@[simp] theorem fallible_lift_error_bind (e : Fault) (f : α → Fallible ε β) :
    (liftM (Except.error e : Except Fault α) >>= f) = (Except.error e : Except Fault _) := rfl

@[simp] theorem fallible_ok_bind (a : α) (f : α → Fallible ε β) :
    ((Except.ok (Except.ok a) : Except Fault (Except ε α)) >>= f : Fallible ε β) = f a := rfl

@[simp] theorem fallible_okOr_some_bind (e : ε) (a : α) (f : α → Fallible ε β) :
    (Fallible.okOr e (some a) >>= f) = f a := rfl

@[simp] theorem okOrNone_ok (a : α) :
    Fallible.okOrNone (Except.ok (Except.ok a) : Except Fault (Except ε α)) = .ok (some a) := rfl

theorem exists_of_okOrNone {x : Fallible ε α} (h : x.okOrNone.toOption.join.isSome = true) :
    ∃ a, x = (.ok (.ok a) : Except Fault (Except ε α)) := by
  rcases x with e | e | a
  · cases h
  · cases h
  · exact ⟨a, rfl⟩

theorem fallible_ok_bind_of_eq {x : Fallible ε α} {a : α} (h : x = .ok (.ok a))
    (f : α → Fallible ε β) : (x >>= f) = f a := by
  subst h
  rfl

@[simp] theorem fallible_pure (a : α) :
    (pure a : Fallible ε α) = (Except.ok (Except.ok a) : Except Fault _) := rfl

theorem fallible_bind_eq_ok {x : Fallible ε α} {f : α → Fallible ε β} {b : β} :
    (x >>= f) = (.ok (.ok b) : Except Fault (Except ε β)) ↔
      ∃ a, x = (.ok (.ok a) : Except Fault (Except ε α))
        ∧ f a = (.ok (.ok b) : Except Fault (Except ε β)) := by
  rcases x with e | e | a
  · constructor
    · intro h
      cases h
    · rintro ⟨_, h, -⟩
      cases h
  · constructor
    · intro h
      cases h
    · rintro ⟨_, h, -⟩
      cases h
  · constructor
    · exact fun h => ⟨a, rfl, h⟩
    · rintro ⟨a', h, hf⟩
      obtain rfl := Except.ok.inj (Except.ok.inj h)
      exact hf

theorem fallible_okOr_eq_ok {e : ε} {o : Option α} {a : α}
    (h : Fallible.okOr e o = (.ok (.ok a) : Except Fault (Except ε α))) : o = some a := by
  cases o with
  | none => cases h
  | some b =>
    obtain rfl := Except.ok.inj (Except.ok.inj h)
    rfl

theorem fallible_lift_eq_ok {x : Except Fault α} {a : α}
    (h : (liftM x : Fallible ε α) = (.ok (.ok a) : Except Fault (Except ε α))) : x = .ok a := by
  cases x with
  | error e => cases h
  | ok b =>
    obtain rfl := Except.ok.inj (Except.ok.inj h)
    rfl

theorem fallible_lift_eq_error {x : Except Fault α} {e : Fault}
    (h : (liftM x : Fallible ε α) = (.error e : Except Fault (Except ε α))) : x = .error e := by
  cases x with
  | error e' => exact congrArg Except.error (Except.error.inj h)
  | ok a => cases h

/-- A computation that does not panic. -/
def NoPanic (x : Fallible ε α) : Prop := ∃ r : Except ε α, x = .ok r

theorem noPanic_bind {x : Fallible ε α} {f : α → Fallible ε β} (hx : NoPanic x)
    (hf : ∀ a, x = (.ok (.ok a) : Except Fault (Except ε α)) → NoPanic (f a)) :
    NoPanic (x >>= f) := by
  obtain ⟨r, rfl⟩ := hx
  cases r with
  | error e => exact ⟨.error e, rfl⟩
  | ok a => exact hf a rfl

theorem noPanic_mapM {f : α → Fallible ε β} : ∀ {l : List α},
    (∀ x ∈ l, NoPanic (f x)) → NoPanic (l.mapM f)
  | [], _ => ⟨.ok [], rfl⟩
  | x :: l, h => by
    rw [List.mapM_cons]
    refine noPanic_bind (h x List.mem_cons_self) fun y _ => ?_
    refine noPanic_bind (noPanic_mapM fun z hz => h z (List.mem_cons_of_mem _ hz)) fun ys _ => ?_
    exact ⟨.ok (y :: ys), rfl⟩

end Fallible

end K23VM
