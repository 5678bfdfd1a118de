import OpenAIGateway.Decimal

/-!
Columns of type `numeric(precision, scale)`: whole units of a power of ten, with
a bounded number of digits. Their sums and products stay within the digits of a
decimal, so the arithmetic of the decimals is exact on them.
-/

set_option linter.all false

namespace OpenAIGateway

/-- A value that a `numeric(precision, scale)` column holds. -/
structure Numeric (precision scale : ℕ) where
  units : ℤ
  bound : |units| < 10 ^ precision

namespace Numeric

variable {p q s t : ℕ}

def toDecimal (n : Numeric p s) : Decimal := .new n.units s

theorem lt_mantissa {m : ℤ} {precision : ℕ} (hp : precision ≤ 28) (h : |m| < 10 ^ precision) :
    |m| < 2 ^ 96 :=
  calc |m| < 10 ^ precision := h
    _ ≤ 10 ^ 28 := pow_le_pow_right₀ (by norm_num) hp
    _ < 2 ^ 96 := by norm_num

theorem toDecimal_val (n : Numeric p s) (hp : p ≤ 28) (hs : s ≤ 28) :
    n.toDecimal.val = n.units / 10 ^ s := Decimal.new_val (lt_mantissa hp n.bound) hs

/-- Two columns of one scale are added without rounding. -/
theorem add_exact (A : Arithmetic) (a b : Numeric p s) (hp : p < 28) (hs : s ≤ 28) :
    ∃ d, A.add a.toDecimal b.toDecimal = some d ∧ d.val = a.toDecimal.val + b.toDecimal.val := by
  have hbound : |a.units + b.units| < 10 ^ (p + 1) := by
    have hsum := abs_add_le a.units b.units
    have ha := a.bound
    have hb := b.bound
    have hpos : (0 : ℤ) < 10 ^ p := by positivity
    rw [pow_succ]
    linarith
  have hval : (Decimal.new (a.units + b.units) s).val = a.toDecimal.val + b.toDecimal.val := by
    rw [toDecimal_val a hp.le hs, toDecimal_val b hp.le hs,
      Decimal.new_val (lt_mantissa hp hbound) hs]
    push_cast
    ring
  exact ⟨_, A.add_rounded.exact_of_representable (a.toDecimal, b.toDecimal) _ hval.symm, hval⟩

/-- Two columns whose digits fit together are multiplied without rounding. -/
theorem mul_exact (A : Arithmetic) (a : Numeric p s) (b : Numeric q t) (hpq : p + q ≤ 28)
    (hst : s + t ≤ 28) :
    ∃ d, A.mul a.toDecimal b.toDecimal = some d ∧ d.val = a.toDecimal.val * b.toDecimal.val := by
  have hbound : |a.units * b.units| < 10 ^ (p + q) := by
    rw [abs_mul, pow_add]
    exact mul_lt_mul'' a.bound b.bound (abs_nonneg _) (abs_nonneg _)
  have hval : (Decimal.new (a.units * b.units) (s + t)).val =
      a.toDecimal.val * b.toDecimal.val := by
    rw [toDecimal_val a (by omega) (by omega), toDecimal_val b (by omega) (by omega),
      Decimal.new_val (lt_mantissa hpq hbound) hst, pow_add]
    push_cast
    field_simp
  exact ⟨_, A.mul_rounded.exact_of_representable (a.toDecimal, b.toDecimal) _ hval.symm, hval⟩

end Numeric

end OpenAIGateway
