import Mathlib.Data.Nat.Bitwise
import K23VM.Lib.Fault

/-!
# Checked machine arithmetic

Unsigned 64-bit words as natural numbers, with the operations that saturate, report an overflow,
or stop on one.
-/

namespace K23VM

/-- `u64::MAX` and `usize::MAX`. -/
def U64_MAX : ℕ := 2 ^ 64 - 1

/-- `u64::saturating_add`. -/
def saturatingAdd (x y : ℕ) : ℕ := min (x + y) U64_MAX

/-- `u64::checked_mul`. -/
def checkedMul (x y : ℕ) : Option ℕ := if x * y < 2 ^ 64 then some (x * y) else none

/-- `i64::try_from(x).unwrap()`. -/
def toI64 (x : ℕ) : Except Fault ℕ :=
  if x < 2 ^ 63 then .ok x else panicking "out of range integral type conversion attempted"

/-- `i32::try_from(x).unwrap()`. -/
def toI32 (x : ℕ) : Except Fault ℕ :=
  if x < 2 ^ 31 then .ok x else panicking "out of range integral type conversion attempted"

/-- `u32::try_from(x).unwrap()`. -/
def toU32 (x : ℕ) : Except Fault ℕ :=
  if x < 2 ^ 32 then .ok x else panicking "out of range integral type conversion attempted"

/-- `a.checked_sub(b).unwrap()`. -/
def checkedSub (a b : ℕ) : Except Fault ℕ :=
  if b ≤ a then .ok (a - b) else panicking "called `Option::unwrap()` on a `None` value"

/-- `a + b` in a build with overflow checks. -/
def addOrPanic (a b : ℕ) : Except Fault ℕ :=
  if a + b < 2 ^ 64 then .ok (a + b) else panicking "attempt to add with overflow"

/-- `a + b` for `u32` in a build with overflow checks. -/
def addU32OrPanic (a b : ℕ) : Except Fault ℕ :=
  if a + b < 2 ^ 32 then .ok (a + b) else panicking "attempt to add with overflow"

/-- `a * b` for `u32` in a build with overflow checks. -/
def mulU32OrPanic (a b : ℕ) : Except Fault ℕ :=
  if a * b < 2 ^ 32 then .ok (a * b) else panicking "attempt to multiply with overflow"

/-- `a - b` in a build with overflow checks. -/
def subOrPanic (a b : ℕ) : Except Fault ℕ :=
  if b ≤ a then .ok (a - b) else panicking "attempt to subtract with overflow"

theorem toU32_eq_ok {x y : ℕ} : toU32 x = .ok y ↔ x < 2 ^ 32 ∧ y = x :=
  ite_panicking_eq_ok

theorem checkedSub_eq_ok {a b c : ℕ} : checkedSub a b = .ok c ↔ b ≤ a ∧ c = a - b :=
  ite_panicking_eq_ok

theorem addU32OrPanic_eq_ok {a b c : ℕ} :
    addU32OrPanic a b = .ok c ↔ a + b < 2 ^ 32 ∧ c = a + b :=
  ite_panicking_eq_ok

theorem mulU32OrPanic_eq_ok {a b c : ℕ} :
    mulU32OrPanic a b = .ok c ↔ a * b < 2 ^ 32 ∧ c = a * b :=
  ite_panicking_eq_ok

theorem subOrPanic_eq_ok {a b c : ℕ} : subOrPanic a b = .ok c ↔ b ≤ a ∧ c = a - b :=
  ite_panicking_eq_ok

/-- Clearing the low `k` bits of a word rounds it down to a multiple of `2 ^ k`. -/
theorem land_two_pow_sub {w k x : ℕ} (hk : k ≤ w) (hx : x < 2 ^ w) :
    x &&& (2 ^ w - 2 ^ k) = x / 2 ^ k * 2 ^ k := by
  have hpos : 0 < 2 ^ k := Nat.two_pow_pos k
  have hle : 2 ^ k ≤ 2 ^ w := Nat.pow_le_pow_right (by decide) hk
  have hm : 2 ^ w - 2 ^ k = 2 ^ w - (2 ^ k - 1 + 1) := by omega
  apply Nat.eq_of_testBit_eq
  intro i
  rw [hm, Nat.testBit_and, Nat.testBit_two_pow_sub_succ (by omega), Nat.testBit_two_pow_sub_one,
    Nat.testBit_mul_two_pow, Nat.testBit_div_two_pow]
  by_cases hi : k ≤ i
  · rw [Nat.sub_add_cancel hi]
    by_cases hw : i < w
    · simp [hi, hw]
    · rw [Nat.testBit_lt_two_pow (hx.trans_le (Nat.pow_le_pow_right (by decide) (by omega)))]
      simp
  · simp [hi, Nat.lt_of_not_le hi]

end K23VM
