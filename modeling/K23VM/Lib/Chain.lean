import Mathlib.Data.List.Nodup
import Mathlib.Logic.Function.Basic
import K23VM.Lib.Fault

/-!
# Chains of pointers

A list that is threaded through memory: each of its cells holds the address of the next one, and the
last one holds null.
-/

namespace K23VM

/-- The cells that are visited from the address `p` on are those of the list. -/
def Chain (next : ℕ → Option ℕ) : ℕ → List ℕ → Prop
  | p, [] => p = 0
  | p, q :: l => p = q ∧ q ≠ 0 ∧ ∃ r, next q = some r ∧ Chain next r l

/-- The cells from the address `p` on, up to the one that holds null. -/
def walk (next : ℕ → Option ℕ) : ℕ → ℕ → Except Fault (List ℕ)
  | 0, _ => .error .fuel
  | fuel + 1, p => do
    let q ← unwrap "null or dangling pointer" (next p)
    if q = 0 then pure [p] else pure (p :: (← walk next fuel q))

section Chain

variable {next : ℕ → Option ℕ}

/-- What is not in the list may be overwritten. -/
theorem Chain.update {p q : ℕ} {l : List ℕ} {r : Option ℕ} (h : Chain next p l) (hq : q ∉ l) :
    Chain (Function.update next q r) p l := by
  induction l generalizing p with
  | nil => exact h
  | cons a l ih =>
    obtain ⟨rfl, hp, b, hb, h⟩ := h
    rw [List.mem_cons, not_or] at hq
    refine ⟨rfl, hp, b, ?_, ih h hq.2⟩
    rw [Function.update_of_ne (Ne.symm hq.1), hb]

/-- A cell is put in front of the list. -/
theorem Chain.cons {p q : ℕ} {l : List ℕ} (h : Chain next p l) (hq : q ∉ l) (h0 : q ≠ 0) :
    Chain (Function.update next q (some p)) q (q :: l) :=
  ⟨rfl, h0, p, Function.update_self .., h.update hq⟩

/-- The walk ends where there is fuel for all cells. -/
theorem Chain.walk_of_le {fuel p : ℕ} {l : List ℕ} (h : Chain next p l) (hp : p ≠ 0)
    (hfuel : l.length ≤ fuel) : walk next fuel p = .ok l := by
  induction l generalizing fuel p with
  | nil => exact absurd h hp
  | cons a l ih =>
    obtain ⟨rfl, -, b, hb, h⟩ := h
    rcases fuel with _ | fuel
    · exact absurd hfuel (Nat.not_succ_le_zero l.length)
    unfold walk
    rw [hb, unwrap_some]
    by_cases h0 : b = 0
    · rcases l with _ | ⟨c, l⟩
      · simp [h0, bind, Except.bind, pure, Except.pure]
      · exact absurd (h.1.symm.trans h0) h.2.1
    · simp [h0, bind, Except.bind, pure, Except.pure, ih h h0 (Nat.le_of_succ_le_succ hfuel)]

theorem Chain.walk_eq {p : ℕ} {l : List ℕ} (h : Chain next p l) (hp : p ≠ 0) :
    walk next l.length p = .ok l := h.walk_of_le hp (Nat.le_refl _)

end Chain

end K23VM
