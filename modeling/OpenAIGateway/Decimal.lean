import Mathlib.Algebra.Order.Field.Rat
import Mathlib.Algebra.Order.Field.Power
import Mathlib.Data.Finite.Prod
import Mathlib.Data.Set.Finite.Lemmas
import Mathlib.Order.Interval.Finset.Nat
import Mathlib.Data.Int.Interval
import Mathlib.Tactic.Linarith
import Mathlib.Tactic.NormNum
import Mathlib.Tactic.FieldSimp
import Mathlib.Tactic.Positivity
import Mathlib.Tactic.Ring

/-!
Fixed-point decimals: a mantissa of 96 bits over a power of ten of at most 28.
Two decimals are compared by what they are worth, so a decimal is its value.
Arithmetic is known only as far as the format promises: a result that the
format can hold is exact, a result in range is rounded, and rounding keeps the
order.
-/

set_option linter.all false

namespace OpenAIGateway

/-- The values the format holds. -/
def Representable (q : ℚ) : Prop :=
  ∃ (m : ℤ) (s : ℕ), |m| < 2 ^ 96 ∧ s ≤ 28 ∧ q = m / 10 ^ s

structure Decimal where
  val : ℚ
  representable : Representable val
  deriving DecidableEq

namespace Decimal

/-- A mantissa at a scale; zero where the format does not hold it. -/
def new (m : ℤ) (s : ℕ) : Decimal :=
  if h : |m| < 2 ^ 96 ∧ s ≤ 28 then ⟨m / 10 ^ s, m, s, h.1, h.2, rfl⟩
  else ⟨0, 0, 0, by decide, by decide, by norm_num⟩

theorem new_val {m : ℤ} {s : ℕ} (hm : |m| < 2 ^ 96) (hs : s ≤ 28) : (new m s).val = m / 10 ^ s := by
  rw [new, dif_pos ⟨hm, hs⟩]

theorem ext {d e : Decimal} (h : d.val = e.val) : d = e := by
  cases d
  cases e
  cases h
  rfl

/-- An integer of 64 bits. -/
def ofU64 (n : ℕ) : Decimal := new ((n % 2 ^ 64 : ℕ) : ℤ) 0

theorem ofU64_val_mod (n : ℕ) : (ofU64 n).val = (n % 2 ^ 64 : ℕ) := by
  have hm : |((n % 2 ^ 64 : ℕ) : ℤ)| < 2 ^ 96 := by
    rw [abs_of_nonneg (by positivity)]
    omega
  rw [ofU64, new_val hm (by omega), pow_zero, div_one, Int.cast_natCast]

theorem ofU64_val {n : ℕ} (h : n < 2 ^ 64) : (ofU64 n).val = n := by
  rw [ofU64_val_mod, Nat.mod_eq_of_lt h]

theorem ofU64_nonneg (n : ℕ) : 0 ≤ (ofU64 n).val := by
  rw [ofU64_val_mod]
  positivity

end Decimal

/-- The largest value of the format. -/
def maxDecimal : ℚ := 2 ^ 96 - 1

/-- An operation that rounds its exact result into the format. `none` is a result out of range. -/
structure Rounded {ι : Type*} (exact : ι → ℚ) (op : ι → Option Decimal) : Prop where
  exact_of_representable : ∀ i d, exact i = d.val → op i = some d
  returns : ∀ i, |exact i| ≤ maxDecimal → ∃ d, op i = some d
  mono : ∀ i j d e, op i = some d → op j = some e → exact i ≤ exact j → d.val ≤ e.val

/-- The arithmetic of the decimals. -/
structure Arithmetic where
  add : Decimal → Decimal → Option Decimal
  mul : Decimal → Decimal → Option Decimal
  div : Decimal → Decimal → Option Decimal
  add_rounded : Rounded (fun p : Decimal × Decimal => p.1.val + p.2.val) (fun p => add p.1 p.2)
  mul_rounded : Rounded (fun p : Decimal × Decimal => p.1.val * p.2.val) (fun p => mul p.1 p.2)
  div_rounded : Rounded (fun p : Decimal × {d : Decimal // d.val ≠ 0} => p.1.val / p.2.val.val)
    (fun p => div p.1 p.2.val)

theorem Decimal.abs_le (d : Decimal) : |d.val| ≤ maxDecimal := by
  obtain ⟨q, m, s, hm, hs, rfl⟩ := d
  have hint : |m| ≤ 2 ^ 96 - 1 := by omega
  have hmant : |(m : ℚ)| ≤ 2 ^ 96 - 1 := by exact_mod_cast hint
  have hscale : (1 : ℚ) ≤ 10 ^ s := one_le_pow₀ (by norm_num)
  show |(m : ℚ) / 10 ^ s| ≤ 2 ^ 96 - 1
  rw [abs_div, abs_of_pos (by positivity : (0 : ℚ) < 10 ^ s)]
  exact le_trans (div_le_self (abs_nonneg _) hscale) hmant

/-- A million times a decimal fits, unless the decimal is far above a million. -/
theorem Decimal.mul_million (d : Decimal) :
    Representable (10 ^ 6 * d.val) ∨ (Representable (d.val / 10 ^ 6) ∧ 2 * 10 ^ 6 ≤ |d.val|) := by
  obtain ⟨q, m, s, hm, hs, rfl⟩ := d
  show Representable (10 ^ 6 * ((m : ℚ) / 10 ^ s)) ∨
    (Representable ((m : ℚ) / 10 ^ s / 10 ^ 6) ∧ 2 * 10 ^ 6 ≤ |(m : ℚ) / 10 ^ s|)
  by_cases hscale : 6 ≤ s
  · left
    refine ⟨m, s - 6, hm, by omega, ?_⟩
    have hsplit : (10 : ℚ) ^ s = 10 ^ (s - 6) * 10 ^ 6 := by
      rw [← pow_add]
      congr 1
      omega
    rw [hsplit]
    field_simp
  · by_cases hfits : |m * 10 ^ (6 - s)| < 2 ^ 96
    · left
      refine ⟨m * 10 ^ (6 - s), 0, hfits, by omega, ?_⟩
      have hsplit : (10 : ℚ) ^ 6 = 10 ^ (6 - s) * 10 ^ s := by
        rw [← pow_add]
        congr 1
        omega
      rw [hsplit]
      push_cast
      field_simp
    · right
      refine ⟨⟨m, s + 6, hm, by omega, by rw [pow_add, div_div]⟩, ?_⟩
      have hbig : (2 : ℚ) ^ 96 ≤ |(m : ℚ)| * 10 ^ (6 - s) := by
        have hint : (2 : ℤ) ^ 96 ≤ |m| * 10 ^ (6 - s) := by
          rw [abs_mul, abs_of_pos (by positivity : (0 : ℤ) < 10 ^ (6 - s))] at hfits
          exact not_lt.mp hfits
        exact_mod_cast hint
      have hsplit : (10 : ℚ) ^ (6 - s) * 10 ^ s = 10 ^ 6 := by
        rw [← pow_add]
        congr 1
        omega
      have hpos : (0 : ℚ) < 10 ^ (6 - s) := by positivity
      rw [abs_div, abs_of_pos (by positivity : (0 : ℚ) < 10 ^ s), le_div_iff₀ (by positivity)]
      have hgoal : 2 * 10 ^ 6 * 10 ^ s * 10 ^ (6 - s) ≤ |(m : ℚ)| * 10 ^ (6 - s) := by
        calc (2 : ℚ) * 10 ^ 6 * 10 ^ s * 10 ^ (6 - s) = 2 * 10 ^ 6 * (10 ^ (6 - s) * 10 ^ s) := by
              ring
          _ = 2 * 10 ^ 6 * 10 ^ 6 := by rw [hsplit]
          _ ≤ 2 ^ 96 := by norm_num
          _ ≤ |(m : ℚ)| * 10 ^ (6 - s) := hbig
      exact le_of_mul_le_mul_right hgoal hpos

/-- A millionth of a decimal fits, unless the decimal is within a million. -/
theorem Decimal.div_million (d : Decimal) :
    Representable (d.val / 10 ^ 6) ∨ |d.val| ≤ 10 ^ 6 := by
  obtain ⟨q, m, s, hm, hs, rfl⟩ := d
  show Representable ((m : ℚ) / 10 ^ s / 10 ^ 6) ∨ |(m : ℚ) / 10 ^ s| ≤ 10 ^ 6
  by_cases hscale : s ≤ 22
  · exact Or.inl ⟨m, s + 6, hm, by omega, by rw [pow_add, div_div]⟩
  · right
    have hmant : |(m : ℚ)| ≤ 2 ^ 96 := by exact_mod_cast hm.le
    have hten : (10 : ℚ) ^ 23 ≤ 10 ^ s := pow_le_pow_right₀ (by norm_num) (by omega)
    rw [abs_div, abs_of_pos (by positivity : (0 : ℚ) < 10 ^ s), div_le_iff₀ (by positivity)]
    calc |(m : ℚ)| ≤ 2 ^ 96 := hmant
      _ ≤ 10 ^ 6 * 10 ^ 23 := by norm_num
      _ ≤ 10 ^ 6 * 10 ^ s := by gcongr

theorem finite_representable : {q : ℚ | Representable q}.Finite := by
  have hparts : (Set.Icc (-2 ^ 96 : ℤ) (2 ^ 96) ×ˢ Set.Iic (28 : ℕ)).Finite :=
    Set.Finite.prod (Set.finite_Icc _ _) (Set.finite_Iic _)
  apply (hparts.image (fun p : ℤ × ℕ => (p.1 : ℚ) / 10 ^ p.2)).subset
  intro q hq
  obtain ⟨m, s, hm, hs, rfl⟩ := hq
  exact ⟨(m, s), ⟨⟨(abs_lt.mp hm).1.le, (abs_lt.mp hm).2.le⟩, hs⟩, rfl⟩

/-- Below every number in range there is a largest decimal. -/
theorem exists_largest_le {x : ℚ} (h : -maxDecimal ≤ x) :
    ∃ d : Decimal, d.val ≤ x ∧ ∀ e : Decimal, e.val ≤ x → e.val ≤ d.val := by
  have hfinite : {q : ℚ | Representable q ∧ q ≤ x}.Finite :=
    finite_representable.subset (fun q hq => hq.1)
  have hleast : Representable (-maxDecimal) :=
    ⟨-(2 ^ 96 - 1), 0, by decide, by omega, by norm_num [maxDecimal]⟩
  obtain ⟨q, ⟨hrep, hle⟩, hmax⟩ := Set.exists_max_image _ id hfinite ⟨-maxDecimal, hleast, h⟩
  exact ⟨⟨q, hrep⟩, hle, fun e he => hmax e.val ⟨e.representable, he⟩⟩

open Classical in
/-- Rounding towards negative infinity. -/
noncomputable def roundDown (x : ℚ) : Option Decimal :=
  if h : |x| ≤ maxDecimal then some (exists_largest_le (abs_le.mp h).1).choose else none

theorem roundDown_rounded {ι : Type*} (exact : ι → ℚ) :
    Rounded exact (fun i => roundDown (exact i)) where
  exact_of_representable := by
    intro i d hd
    have hrange : |exact i| ≤ maxDecimal := by
      rw [hd]
      exact d.abs_le
    have hspec := (exists_largest_le (abs_le.mp hrange).1).choose_spec
    simp only [roundDown, dif_pos hrange, Option.some.injEq]
    exact Decimal.ext (le_antisymm (hspec.1.trans hd.le) (hspec.2 d hd.ge))
  returns := by
    intro i hrange
    exact ⟨_, dif_pos hrange⟩
  mono := by
    intro i j d e hd he hle
    simp only [roundDown] at hd he
    by_cases hi : |exact i| ≤ maxDecimal
    · by_cases hj : |exact j| ≤ maxDecimal
      · rw [dif_pos hi, Option.some.injEq] at hd
        rw [dif_pos hj, Option.some.injEq] at he
        have hspec := (exists_largest_le (abs_le.mp hi).1).choose_spec
        have hspec' := (exists_largest_le (abs_le.mp hj).1).choose_spec
        rw [hd] at hspec
        rw [he] at hspec'
        exact hspec'.2 d (hspec.1.trans hle)
      · rw [dif_neg hj] at he
        cases he
    · rw [dif_neg hi] at hd
      cases hd

theorem roundDown_le {x : ℚ} {d : Decimal} (h : roundDown x = some d) : d.val ≤ x := by
  unfold roundDown at h
  by_cases hrange : |x| ≤ maxDecimal
  · rw [dif_pos hrange, Option.some.injEq] at h
    rw [← h]
    exact (exists_largest_le (abs_le.mp hrange).1).choose_spec.1
  · rw [dif_neg hrange] at h
    cases h

/-- The arithmetic that rounds towards negative infinity. -/
noncomputable def Arithmetic.down : Arithmetic where
  add a b := roundDown (a.val + b.val)
  mul a b := roundDown (a.val * b.val)
  div a b := roundDown (a.val / b.val)
  add_rounded := roundDown_rounded _
  mul_rounded := roundDown_rounded _
  div_rounded := roundDown_rounded _

def Decimal.neg (d : Decimal) : Decimal where
  val := -d.val
  representable := by
    obtain ⟨m, s, hm, hs, hval⟩ := d.representable
    exact ⟨-m, s, by rwa [abs_neg], hs, by rw [hval]; push_cast; ring⟩

/-- Rounding towards positive infinity. -/
noncomputable def roundUp (x : ℚ) : Option Decimal := (roundDown (-x)).map Decimal.neg

theorem roundUp_rounded {ι : Type*} (exact : ι → ℚ) :
    Rounded exact (fun i => roundUp (exact i)) where
  exact_of_representable := by
    intro i d hd
    have hdown : roundDown (-exact i) = some d.neg :=
      (roundDown_rounded (fun i => -exact i)).exact_of_representable i d.neg (by rw [hd]; rfl)
    simp only [roundUp, hdown, Option.map_some, Option.some.injEq]
    exact Decimal.ext (neg_neg d.val)
  returns := by
    intro i hrange
    obtain ⟨d, hd⟩ := (roundDown_rounded (fun i => -exact i)).returns i (by rwa [abs_neg])
    exact ⟨d.neg, congrArg (Option.map Decimal.neg) hd⟩
  mono := by
    intro i j d e hd he hle
    obtain ⟨d', hd', rfl⟩ := Option.map_eq_some_iff.mp hd
    obtain ⟨e', he', rfl⟩ := Option.map_eq_some_iff.mp he
    exact neg_le_neg ((roundDown_rounded (fun i => -exact i)).mono j i e' d' he' hd'
      (neg_le_neg hle))

theorem le_roundUp {x : ℚ} {d : Decimal} (h : roundUp x = some d) : x ≤ d.val := by
  obtain ⟨d', hd', rfl⟩ := Option.map_eq_some_iff.mp h
  exact le_neg_of_le_neg (roundDown_le hd')

/-- The arithmetic that rounds towards positive infinity. -/
noncomputable def Arithmetic.up : Arithmetic where
  add a b := roundUp (a.val + b.val)
  mul a b := roundUp (a.val * b.val)
  div a b := roundUp (a.val / b.val)
  add_rounded := roundUp_rounded _
  mul_rounded := roundUp_rounded _
  div_rounded := roundUp_rounded _

/-- No decimal is between zero and the unit of the last place. -/
theorem Decimal.last_place_le {d : Decimal} (h : 0 < d.val) : 1 / 10 ^ 28 ≤ d.val := by
  obtain ⟨q, m, s, hm, hs, rfl⟩ := d
  have hscale : (0 : ℚ) < 10 ^ s := by positivity
  have hpos : 0 < m := by exact_mod_cast (div_pos_iff_of_pos_right hscale).mp h
  have hone : (1 : ℚ) ≤ m := by exact_mod_cast hpos
  have hten : (10 : ℚ) ^ s ≤ 10 ^ 28 := pow_le_pow_right₀ (by norm_num) hs
  calc (1 : ℚ) / 10 ^ 28 ≤ 1 / 10 ^ s := one_div_le_one_div_of_le hscale hten
    _ ≤ m / 10 ^ s := by gcongr

/-- Between four fifths of a decimal and the decimal there is another, unless the
decimal is at most four units of the last place. -/
theorem Decimal.exists_above_four_fifths (d : Decimal) (h : 5 / 10 ^ 28 ≤ d.val) :
    ∃ e : Decimal, d.val * (8 / 10) ≤ e.val ∧ e.val < d.val := by
  obtain ⟨q, m, s, hm, hs, rfl⟩ := d
  have hscale : (0 : ℚ) < 10 ^ s := by positivity
  have hpos : 0 < m := by
    have : (0 : ℚ) < m / 10 ^ s := lt_of_lt_of_le (by norm_num) h
    exact_mod_cast (div_pos_iff_of_pos_right hscale).mp this
  obtain ⟨hlow, hhigh⟩ := abs_lt.mp hm
  by_cases hfive : 5 ≤ m
  · -- One unit of the mantissa below is at least four fifths.
    refine ⟨⟨((m - 1 : ℤ) : ℚ) / 10 ^ s, m - 1, s, abs_lt.mpr (by omega), hs, rfl⟩, ?_, ?_⟩
    · have hfive' : (5 : ℚ) ≤ m := by exact_mod_cast hfive
      show (m : ℚ) / 10 ^ s * (8 / 10) ≤ ((m - 1 : ℤ) : ℚ) / 10 ^ s
      rw [div_mul_eq_mul_div, div_le_div_iff_of_pos_right hscale]
      push_cast
      linarith
    · show ((m - 1 : ℤ) : ℚ) / 10 ^ s < (m : ℚ) / 10 ^ s
      rw [div_lt_div_iff_of_pos_right hscale]
      push_cast
      linarith
  · -- A small mantissa leaves a digit to spare.
    have hspare : s ≤ 27 := by
      by_contra hlarge
      obtain rfl : s = 28 := by omega
      have hmant : (5 : ℚ) ≤ m := (div_le_div_iff_of_pos_right hscale).mp h
      exact hfive (by exact_mod_cast hmant)
    have hten : (10 : ℚ) ^ (s + 1) = 10 ^ s * 10 := pow_succ 10 s
    refine ⟨⟨((10 * m - 2 : ℤ) : ℚ) / 10 ^ (s + 1), 10 * m - 2, s + 1, abs_lt.mpr (by omega),
      by omega, rfl⟩, ?_, ?_⟩
    · show (m : ℚ) / 10 ^ s * (8 / 10) ≤ ((10 * m - 2 : ℤ) : ℚ) / 10 ^ (s + 1)
      have hone : (1 : ℚ) ≤ m := by exact_mod_cast hpos
      rw [hten, div_mul_div_comm, div_le_div_iff_of_pos_right (by positivity)]
      push_cast
      linarith
    · show ((10 * m - 2 : ℤ) : ℚ) / 10 ^ (s + 1) < (m : ℚ) / 10 ^ s
      rw [hten, div_lt_div_iff₀ (by positivity) hscale]
      push_cast
      nlinarith

end OpenAIGateway
