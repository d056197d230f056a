import Mathlib.Data.Nat.Cast.Order.Field
import Mathlib.Tactic.Linarith
import Mathlib.Tactic.FieldSimp

/-!
# Truncating arithmetic

A formula evaluated in the natural numbers, with divisions that truncate, falls short of its
exact value. `Short n x ε` says that `n` is at most `x`, and short of it by at most `ε`. There
is a rule for each operation, so that the shortfall of a formula is found by applying the rules
in the order of its operations: a division by `d` loses up to `(d - 1) / d` and divides what
was lost before, a multiplication multiplies it.
-/

namespace Truncation

universe u

variable {K : Type u} [Field K] [LinearOrder K] {n : ℕ} {x ε : K}

/-- `n` is at most `x`, and short of it by at most `ε`. -/
structure Short (n : ℕ) (x ε : K) : Prop where
  le : (n : K) ≤ x
  short : x ≤ n + ε

/-- A number does not fall short of itself. -/
theorem Short.exact (n : ℕ) : Short n (n : K) 0 := ⟨le_rfl, (add_zero _).ge⟩

variable [IsStrictOrderedRing K]

/-- A product with a number. -/
theorem Short.mul (h : Short n x ε) (c : ℕ) : Short (n * c) (x * c) (ε * c) := by
  have hc : (0 : K) ≤ c := Nat.cast_nonneg c
  constructor
  · rw [Nat.cast_mul]
    exact mul_le_mul_of_nonneg_right h.le hc
  · rw [Nat.cast_mul, ← add_mul]
    exact mul_le_mul_of_nonneg_right h.short hc

/-- A quotient by a positive number. -/
theorem Short.div (h : Short n x ε) {d : ℕ} (hd : 0 < d) :
    Short (n / d) (x / d) ((ε + (d - 1)) / d) := by
  have hd' : (0 : K) < d := Nat.cast_pos.mpr hd
  constructor
  · calc ((n / d : ℕ) : K) ≤ n / d := Nat.cast_div_le
      _ ≤ x / d := div_le_div_of_nonneg_right h.le hd'.le
  · -- the remainder is at most `d - 1`
    have hrem : n + 1 ≤ n / d * d + d := by
      have hmod : n % d < d := Nat.mod_lt n hd
      have hdiv : n / d * d + n % d = n := Nat.div_add_mod' n d
      omega
    have hremK : (n : K) + 1 ≤ (n / d : ℕ) * d + d := by exact_mod_cast hrem
    have hshort := h.short
    rw [div_le_iff₀ hd', add_mul, div_mul_cancel₀ _ hd'.ne']
    linarith

end Truncation
