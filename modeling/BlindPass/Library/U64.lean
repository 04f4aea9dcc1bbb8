import Mathlib

/-!
# 64-bit arithmetic on natural numbers

The saturating and checked operations of an unsigned 64-bit integer, on naturals.
A value that fits the type is one at most `U64.max`; the operations are total, so a
caller needs no bound to use them, and each lemma says what a result implies. The checked
operations of a signed integer are here too, for values that are never negative.
-/

namespace U64

/-- The greatest unsigned 64-bit value. -/
def max : ℕ := 2 ^ 64 - 1

/-- `saturating_add`. -/
def satAdd (a b : ℕ) : ℕ := min (a + b) max

/-- `saturating_sub`, which on naturals is truncated subtraction. -/
def satSub (a b : ℕ) : ℕ := a - b

/-- `saturating_mul`. -/
def satMul (a b : ℕ) : ℕ := min (a * b) max

def checkedAdd (a b : ℕ) : Option ℕ := if a + b ≤ max then some (a + b) else none

def checkedSub (a b : ℕ) : Option ℕ := if b ≤ a then some (a - b) else none

variable {a b c : ℕ}

theorem satMul_le : satMul a b ≤ a * b := Nat.min_le_left _ _

theorem checkedAdd_eq_some : checkedAdd a b = some c ↔ a + b ≤ max ∧ a + b = c := by
  unfold checkedAdd
  split_ifs with h
  all_goals simp [h]

theorem checkedSub_eq_some : checkedSub a b = some c ↔ b ≤ a ∧ a - b = c := by
  unfold checkedSub
  split_ifs with h
  all_goals simp [h]

/-- A time that is not before a sum, where a sum out of range counts as never reached. -/
theorem le_of_all_checkedAdd_eq_false (h : ((checkedAdd a b).all fun sum => c < sum) = false) :
    a + b ≤ c := by
  cases hadd : checkedAdd a b with
  | none => simp [hadd] at h
  | some =>
    obtain ⟨-, rfl⟩ := checkedAdd_eq_some.mp hadd
    simpa [hadd] using h

end U64

namespace I64

/-- The greatest signed 64-bit value. -/
def max : ℕ := 2 ^ 63 - 1

def checkedAdd (a b : ℕ) : Option ℕ := if a + b ≤ max then some (a + b) else none

def checkedMul (a b : ℕ) : Option ℕ := if a * b ≤ max then some (a * b) else none

theorem checkedMul_getD_le {a b : ℕ} : (checkedMul a b).getD 0 ≤ a * b := by
  unfold checkedMul
  split_ifs with h
  · exact le_rfl
  · exact zero_le

end I64
