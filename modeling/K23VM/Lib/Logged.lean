import Mathlib.Data.List.Basic
import Mathlib.Data.List.Forall2
import Mathlib.Tactic.TypeStar

/-!
# Computations with a log

A computation that records what it does on the way to its result.  What it recorded before it stopped
with an error stays recorded.
-/

namespace K23VM

structure Logged (ω ε α : Type) where
  log : List ω
  result : Except ε α

namespace Logged

variable {ω ε σ α β : Type}

instance : Monad (Logged ω ε) where
  pure a := ⟨[], .ok a⟩
  bind x f :=
    match x.result with
    | .ok a => ⟨x.log ++ (f a).log, (f a).result⟩
    | .error e => ⟨x.log, .error e⟩

/-- Record one thing. -/
def record (w : ω) : Logged ω ε Unit := ⟨[w], .ok ()⟩

instance : MonadLift (Except ε) (Logged ω ε) where
  monadLift x := ⟨[], x⟩

/-- Run through a list with a state, and record one thing for each element. -/
def forEach (g : σ → α → Except ε (ω × σ)) : σ → List α → Logged ω ε σ
  | s, [] => pure s
  | s, a :: l => do
    let (w, s) ← g s a
    record w
    forEach g s l

/-- Record one thing for each element of a list. -/
def recordAll (g : α → Except ε ω) (l : List α) : Logged ω ε Unit :=
  forEach (fun _ a => do pure (← g a, ())) () l

/-! ## What is recorded -/

/-- All that is recorded satisfies `P`, however the computation ends. -/
def Emits (P : ω → Prop) (x : Logged ω ε α) : Prop := ∀ w ∈ x.log, P w

variable {P : ω → Prop}

theorem emits_lift (x : Except ε α) : Emits P (liftM x : Logged ω ε α) := by
  rintro w ⟨⟩

theorem emits_record {w : ω} (h : P w) : Emits P (record w : Logged ω ε Unit) := by
  intro w' hw
  exact List.mem_singleton.1 hw ▸ h

theorem Emits.bind {x : Logged ω ε α} {f : α → Logged ω ε β} (hx : Emits P x)
    (hf : ∀ a, Emits P (f a)) : Emits P (x >>= f) := by
  rcases x with ⟨log, e | a⟩
  · exact hx
  · intro w hw
    rcases List.mem_append.1 hw with hw | hw
    · exact hx w hw
    · exact hf a w hw

theorem emits_forEach {g : σ → α → Except ε (ω × σ)} : ∀ {l : List α} {s : σ},
    (∀ a ∈ l, ∀ s w s', g s a = .ok (w, s') → P w) → Emits P (forEach g s l)
  | [], s, _ => by
    rintro w ⟨⟩
  | a :: l, s, h => by
    unfold forEach
    rcases hg : g s a with e | ⟨w, s'⟩
    · rintro w ⟨⟩
    · have hw := h a List.mem_cons_self s w s' hg
      have hl : Emits P (forEach g s' l) := emits_forEach fun b hb => h b (List.mem_cons_of_mem _ hb)
      show Emits P (record w >>= fun _ => forEach g s' l)
      exact Emits.bind (emits_record hw) fun _ => hl

theorem emits_recordAll {g : α → Except ε ω} {l : List α}
    (h : ∀ a ∈ l, ∀ w, g a = .ok w → P w) : Emits P (recordAll g l) := by
  refine emits_forEach fun a ha s w s' hg => h a ha w ?_
  rcases hga : g a with e | w'
  · rw [hga] at hg
    cases hg
  · rw [hga] at hg
    obtain ⟨rfl, -⟩ := Prod.mk.inj (Except.ok.inj hg)
    rfl

/-! ## Results -/

theorem bind_result (x : Logged ω ε α) (f : α → Logged ω ε β) :
    (x >>= f).result = x.result >>= fun a => (f a).result := by
  rcases x with ⟨log, e | a⟩ <;> rfl

/-- The computation ends with `a`, and records `log`. -/
def Ends (x : Logged ω ε α) (log : List ω) (a : α) : Prop := x = ⟨log, .ok a⟩

theorem bind_ends {x : Logged ω ε α} {f : α → Logged ω ε β} {log : List ω} {b : β}
    (h : Ends (x >>= f) log b) :
    ∃ log₁ log₂ a, Ends x log₁ a ∧ Ends (f a) log₂ b ∧ log = log₁ ++ log₂ := by
  rcases x with ⟨log₁, e | a⟩
  · cases h
  · rcases hf : f a with ⟨log₂, r⟩
    have h : (⟨log₁ ++ (f a).log, (f a).result⟩ : Logged ω ε β) = ⟨log, .ok b⟩ := h
    rw [hf] at h
    obtain ⟨rfl, rfl⟩ := Logged.mk.inj h
    exact ⟨log₁, log₂, a, rfl, hf, rfl⟩

theorem lift_ends {x : Except ε α} {log : List ω} {a : α}
    (h : Ends (liftM x : Logged ω ε α) log a) : x = .ok a ∧ log = [] := by
  obtain ⟨rfl, rfl⟩ := Logged.mk.inj h
  exact ⟨rfl, rfl⟩

theorem record_ends {w : ω} {log : List ω} {u : Unit}
    (h : Ends (record w : Logged ω ε Unit) log u) : log = [w] :=
  (Logged.mk.inj h).1.symm

/-- Each element has its record, in order. -/
theorem forEach_ends {g : σ → α → Except ε (ω × σ)} : ∀ {l : List α} {s s' : σ} {log : List ω},
    Ends (forEach g s l) log s' → List.Forall₂ (fun a w => ∃ s s', g s a = .ok (w, s')) l log
  | [], s, s', log, h => by
    obtain ⟨rfl, -⟩ := Logged.mk.inj h
    exact .nil
  | a :: l, s, s', log, h => by
    unfold forEach at h
    obtain ⟨log₁, log₂, ⟨w, s₁⟩, h₁, h₂, rfl⟩ := bind_ends h
    obtain ⟨hg, rfl⟩ := lift_ends h₁
    obtain ⟨log₃, log₄, u, h₃, h₄, rfl⟩ := bind_ends h₂
    obtain rfl := record_ends h₃
    exact .cons ⟨s, s₁, hg⟩ (forEach_ends h₄)

theorem recordAll_ends {g : α → Except ε ω} {l : List α} {log : List ω} {u : Unit}
    (h : Ends (recordAll g l) log u) : List.Forall₂ (fun a w => g a = .ok w) l log := by
  refine (forEach_ends h).imp fun a w hg => ?_
  obtain ⟨_, _, hg⟩ := hg
  rcases hga : g a with e | w'
  · rw [hga] at hg
    cases hg
  · rw [hga] at hg
    obtain ⟨rfl, -⟩ := Prod.mk.inj (Except.ok.inj hg)
    rfl

/-! ## Returning -/

theorem Ends.bind {x : Logged ω ε α} {f : α → Logged ω ε β} {log₁ log₂ : List ω} {a : α} {b : β}
    (hx : Ends x log₁ a) (hf : Ends (f a) log₂ b) : Ends (x >>= f) (log₁ ++ log₂) b := by
  obtain rfl := hx
  show (⟨log₁ ++ (f a).log, (f a).result⟩ : Logged ω ε β) = _
  rw [hf]

/-- A loop returns where each round does, from the states that the rounds before it leave. -/
theorem forEach_returns {g : σ → α → Except ε (ω × σ)} {I : σ → Prop} : ∀ {l : List α} {s : σ},
    (∀ a ∈ l, ∀ s, I s → ∃ w s', g s a = .ok (w, s') ∧ I s') → I s →
    ∃ log s', Ends (forEach g s l) log s' ∧ I s'
  | [], s, _, hs => ⟨[], s, rfl, hs⟩
  | a :: l, s, h, hs => by
    obtain ⟨w, s₁, hg, hs₁⟩ := h a List.mem_cons_self s hs
    obtain ⟨log, s', hends, hs'⟩ :=
      forEach_returns (fun b hb => h b (List.mem_cons_of_mem _ hb)) hs₁
    refine ⟨w :: log, s', ?_, hs'⟩
    unfold forEach
    rw [hg]
    show Ends (record w >>= fun _ => forEach g s₁ l) ([w] ++ log) s'
    exact Ends.bind rfl hends

theorem recordAll_returns {g : α → Except ε ω} {l : List α} (h : ∀ a ∈ l, ∃ w, g a = .ok w) :
    ∃ log, Ends (recordAll g l) log () := by
  obtain ⟨log, u, hends, -⟩ := forEach_returns (g := fun (_ : Unit) a => do pure (← g a, ()))
    (I := fun _ => True) (fun a ha _ _ => by
      obtain ⟨w, hw⟩ := h a ha
      exact ⟨w, (), by rw [hw]; rfl, trivial⟩) trivial
  exact ⟨log, hends⟩

/-- A loop fails where one of its rounds does. -/
theorem forEach_error {g : σ → α → Except ε (ω × σ)} {e : ε} : ∀ {l : List α} {s : σ},
    (forEach g s l).result = .error e → ∃ a ∈ l, ∃ s, g s a = .error e
  | [], s, h => by cases h
  | a :: l, s, h => by
    unfold forEach at h
    rcases hg : g s a with e' | ⟨w, s'⟩
    · rw [hg] at h
      obtain rfl := Except.error.inj h
      exact ⟨a, List.mem_cons_self, s, hg⟩
    · rw [hg] at h
      have h : (forEach g s' l).result = .error e := h
      obtain ⟨b, hb, hbs⟩ := forEach_error h
      exact ⟨b, List.mem_cons_of_mem _ hb, hbs⟩

theorem recordAll_error {g : α → Except ε ω} {l : List α} {e : ε}
    (h : (recordAll g l).result = .error e) : ∃ a ∈ l, g a = .error e := by
  obtain ⟨a, ha, _, hg⟩ := forEach_error h
  refine ⟨a, ha, ?_⟩
  rcases hga : g a with e' | w
  · rw [hga] at hg
    exact congrArg Except.error (Except.error.inj hg)
  · rw [hga] at hg
    cases hg

end Logged

end K23VM
