import Mathlib.Data.Nat.Notation
import Mathlib.Algebra.Order.Group.Nat

/-!
# Rounding up to a multiple

The least multiple of `p` that is not below `n`.
-/

namespace K23VM

def roundUp (p n : ℕ) : ℕ := (n + (p - 1)) / p * p

section RoundUp

variable {p n : ℕ}

@[simp] theorem roundUp_zero (hp : 0 < p) : roundUp p 0 = 0 := by
  unfold roundUp
  rw [Nat.zero_add, Nat.div_eq_of_lt (by omega), Nat.zero_mul]

theorem dvd_roundUp (p n : ℕ) : p ∣ roundUp p n := ⟨_, Nat.mul_comm _ _⟩

theorem le_roundUp (hp : 0 < p) (n : ℕ) : n ≤ roundUp p n := by
  have h := Nat.div_add_mod (n + (p - 1)) p
  have hlt := Nat.mod_lt (n + (p - 1)) hp
  unfold roundUp
  rw [Nat.mul_comm]
  omega

theorem roundUp_lt (hp : 0 < p) (n : ℕ) : roundUp p n < n + p := by
  have h := Nat.div_mul_le_self (n + (p - 1)) p
  unfold roundUp
  omega

theorem roundUp_le {c : ℕ} (hp : 0 < p) (hd : p ∣ c) (h : n ≤ c) : roundUp p n ≤ c := by
  obtain ⟨q, rfl⟩ := hd
  unfold roundUp
  have hlt : (n + (p - 1)) / p < q + 1 := by
    rw [Nat.div_lt_iff_lt_mul hp, Nat.succ_mul, Nat.mul_comm q p]
    omega
  rw [Nat.mul_comm p q]
  exact Nat.mul_le_mul_right _ (by omega)

theorem roundUp_mono (hp : 0 < p) {m : ℕ} (h : m ≤ n) : roundUp p m ≤ roundUp p n :=
  roundUp_le hp (dvd_roundUp p n) (h.trans (le_roundUp hp n))

theorem roundUp_eq_self_iff (hp : 0 < p) : roundUp p n = n ↔ p ∣ n := by
  constructor
  · intro h
    rw [← h]
    exact dvd_roundUp p n
  · intro h
    exact Nat.le_antisymm (roundUp_le hp h le_rfl) (le_roundUp hp n)

theorem roundUp_pos (hp : 0 < p) (hn : 0 < n) : 0 < roundUp p n :=
  hn.trans_le (le_roundUp hp n)

theorem roundUp_of_le (hp : 0 < p) (hn : 0 < n) (h : n ≤ p) : roundUp p n = p := by
  refine Nat.le_antisymm (roundUp_le hp (Nat.dvd_refl p) h) ?_
  exact Nat.le_of_dvd (roundUp_pos hp hn) (dvd_roundUp p n)

/-- Rounding up gains less than `p`, so a multiple of the length stays within the rounded length only
where it stays within `p`. -/
theorem mul_le_roundUp_iff (hp : 0 < p) (size : ℕ) :
    n * size ≤ roundUp p n ↔ size ≤ 1 ∨ n * size ≤ p := by
  rcases Nat.eq_zero_or_pos n with rfl | hn
  · simp
  by_cases hsize : size ≤ 1
  · refine iff_of_true ?_ (.inl hsize)
    exact (Nat.mul_le_mul_left n hsize).trans ((Nat.mul_one n).le.trans (le_roundUp hp n))
  rw [or_iff_right hsize]
  have h2 : n * 2 ≤ n * size := Nat.mul_le_mul_left n (by omega)
  by_cases hle : n ≤ p
  · rw [roundUp_of_le hp hn hle]
  · have := roundUp_lt hp n
    constructor <;> intro h <;> omega

end RoundUp

end K23VM
