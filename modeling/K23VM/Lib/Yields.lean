import K23VM.Lib.Fault

/-!
# What a computation yields

A computation that has a result with a property unless it stops with an error of a kind, and the rule
for a sequence.
-/

namespace K23VM

variable {ε α β : Type}

/-- There is a result with the property `Q`, or an error with the property `E`. -/
def Yields (E : ε → Prop) (Q : α → Prop) : Except ε α → Prop
  | .ok a => Q a
  | .error e => E e

section Yields

variable {E : ε → Prop} {Q : α → Prop} {R : β → Prop} {x : Except ε α}

theorem Yields.bind {f : α → Except ε β} (hx : Yields E Q x) (hf : ∀ a, Q a → Yields E R (f a)) :
    Yields E R (x >>= f) := by
  cases x with
  | error e => exact hx
  | ok a => exact hf a hx

theorem Yields.mono {Q' : α → Prop} (hx : Yields E Q x) (h : ∀ a, Q a → Q' a) : Yields E Q' x := by
  cases x with
  | error e => exact hx
  | ok a => exact h a hx

theorem Yields.weaken {E' : ε → Prop} (hx : Yields E Q x) (h : ∀ e, E e → E' e) : Yields E' Q x := by
  cases x with
  | error e => exact h e hx
  | ok a => exact hx

/-- A sequence whose first part has a result. -/
theorem yields_bind_of_ok {a : α} {f : α → Except ε β} (hx : x = .ok a) (hf : Yields E R (f a)) :
    Yields E R (x >>= f) := by
  subst hx
  exact hf

/-- A sequence whose first part is known only by its errors. -/
theorem yields_bind {f : α → Except ε β} (hE : ∀ e, x = .error e → E e)
    (hf : ∀ a, x = .ok a → Yields E R (f a)) : Yields E R (x >>= f) := by
  cases x with
  | error e => exact hE e rfl
  | ok a => exact hf a rfl

theorem Yields.of_ok {a : α} (h : Yields E Q x) (hx : x = .ok a) : Q a := by
  subst hx
  exact h

theorem Yields.of_error {e : ε} (h : Yields E Q x) (hx : x = .error e) : E e := by
  subst hx
  exact h

end Yields

section Fallible

variable {E : Fault → Prop} {Q : α → Prop} {R : β → Prop} {x : Fallible ε α}

/-- The same where an error of the program is allowed. -/
def Fallible.Yields (E : Fault → Prop) (Q : α → Prop) (x : Fallible ε α) : Prop :=
  K23VM.Yields E (fun r : Except ε α => ∀ a, r = .ok a → Q a) x

theorem Fallible.Yields.bind {f : α → Fallible ε β} (hx : Fallible.Yields E Q x)
    (hf : ∀ a, Q a → Fallible.Yields E R (f a)) : Fallible.Yields E R (x >>= f) := by
  rcases x with e | e | a
  · exact hx
  · intro b hb
    cases hb
  · exact hf a (hx a rfl)

theorem fallible_yields_bind {f : α → Fallible ε β} (hE : ∀ e, x = (.error e : Except Fault _) → E e)
    (hf : ∀ a, x = (.ok (.ok a) : Except Fault (Except ε α)) → Fallible.Yields E R (f a)) :
    Fallible.Yields E R (x >>= f) := by
  rcases x with e | e | a
  · exact hE e rfl
  · intro b hb
    cases hb
  · exact hf a rfl

theorem Yields.lift {y : Except Fault α} (h : Yields E Q y) :
    Fallible.Yields E Q (liftM y : Fallible ε α) := by
  cases y with
  | error e => exact h
  | ok a =>
    intro b hb
    obtain rfl := Except.ok.inj hb
    exact h

theorem fallible_yields_pure {a : α} (h : Q a) : Fallible.Yields E Q (pure a : Fallible ε α) := by
  intro b hb
  obtain rfl := Except.ok.inj hb
  exact h

theorem Fallible.Yields.of_ok {a : α} (h : Fallible.Yields E Q x)
    (hx : x = (.ok (.ok a) : Except Fault (Except ε α))) : Q a := by
  subst hx
  exact h a rfl

theorem Fallible.Yields.of_error {e : Fault} (h : Fallible.Yields E Q x)
    (hx : x = (.error e : Except Fault (Except ε α))) : E e := by
  subst hx
  exact h

theorem Fallible.Yields.mono {Q' : α → Prop} (h : Fallible.Yields E Q x) (hQ : ∀ a, Q a → Q' a) :
    Fallible.Yields E Q' x :=
  K23VM.Yields.mono h fun _ hr a ha => hQ a (hr a ha)

theorem Fallible.Yields.weaken {E' : Fault → Prop} (h : Fallible.Yields E Q x)
    (hE : ∀ e, E e → E' e) : Fallible.Yields E' Q x :=
  K23VM.Yields.weaken h hE

end Fallible

end K23VM
