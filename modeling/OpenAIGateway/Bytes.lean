import Mathlib.Algebra.Group.Nat.Defs
import Mathlib.Data.List.Basic
import Mathlib.Data.List.Induction
import Mathlib.Tactic.Common

/-!
Checked access to a buffer and the big-endian integers in it. An access that
is out of bounds is `none`, so a computation that returns has read inside the
buffer all along.
-/

set_option linter.all false

namespace OpenAIGateway.Bytes

section Slices

variable {β : Type*}

/-- The bytes from `lo` up to `hi`; `none` where the bounds do not lie in order inside the list. -/
def slice? (b : List β) (lo hi : ℕ) : Option (List β) :=
  if lo ≤ hi ∧ hi ≤ b.length then some ((b.take hi).drop lo) else none

theorem slice?_eq {b : List β} {lo hi : ℕ} (h : lo ≤ hi) (hlen : hi ≤ b.length) :
    slice? b lo hi = some ((b.take hi).drop lo) := if_pos ⟨h, hlen⟩

/-- The bytes from `lo` on. -/
theorem slice?_length {b : List β} {lo : ℕ} (h : lo ≤ b.length) :
    slice? b lo b.length = some (b.drop lo) := by
  rw [slice?_eq h (Nat.le_refl _), List.take_length]

/-- The middle of three parts, given by where it starts and stops. -/
theorem slice?_append {x y z : List β} {lo hi : ℕ} (hlo : lo = x.length)
    (hhi : hi = x.length + y.length) : slice? (x ++ y ++ z) lo hi = some y := by
  have hlen : (x ++ y).length = hi := by rw [List.length_append, hhi]
  rw [slice?_eq (by omega) (by rw [List.length_append]; omega), ← hlen, List.take_left, hlo,
    List.drop_left]

end Slices

/-- The unsigned integer of some bytes, the most significant first. -/
def fromBeBytes (bytes : List UInt8) : ℕ := bytes.foldl (fun n b => n * 256 + b.toNat) 0

/-- The `k` low bytes of `n`, the most significant first. -/
def toBeBytes : ℕ → ℕ → List UInt8
  | 0, _ => []
  | k + 1, n => toBeBytes k (n / 256) ++ [UInt8.ofNat n]

/-- `n` as an unsigned integer of `w` bits, when it fits. -/
def tryFrom (w n : ℕ) : Option ℕ := if n < 2 ^ w then some n else none

def u16At (b : List UInt8) (i : ℕ) : Option ℕ := do
  return fromBeBytes [← b[i]?, ← b[i + 1]?]

def u32At (b : List UInt8) (i : ℕ) : Option ℕ := do
  return fromBeBytes [← b[i]?, ← b[i + 1]?, ← b[i + 2]?, ← b[i + 3]?]

theorem tryFrom_eq_some {w n m : ℕ} (h : tryFrom w n = some m) : n = m ∧ n < 2 ^ w := by
  unfold tryFrom at h
  by_cases hlt : n < 2 ^ w
  · rw [if_pos hlt] at h
    exact ⟨Option.some.inj h, hlt⟩
  · rw [if_neg hlt] at h
    cases h

@[simp] theorem length_toBeBytes (k n : ℕ) : (toBeBytes k n).length = k := by
  induction k generalizing n with
  | zero => rfl
  | succ k ih => rw [toBeBytes, List.length_append, ih]; rfl

theorem fromBeBytes_append_singleton (bytes : List UInt8) (b : UInt8) :
    fromBeBytes (bytes ++ [b]) = 2 ^ 8 * fromBeBytes bytes + b.toNat := by
  unfold fromBeBytes
  rw [List.foldl_append, List.foldl_cons, List.foldl_nil, Nat.mul_comm]
  rfl

/-- The bits of a number are those of its bytes, the last byte's first. -/
theorem testBit_fromBeBytes (bytes : List UInt8) {i : ℕ} (h : i < 8 * bytes.length) :
    (fromBeBytes bytes).testBit i =
      (bytes[bytes.length - 1 - i / 8]?.getD 0).toNat.testBit (i % 8) := by
  induction bytes using List.reverseRecOn generalizing i with
  | nil => cases h
  | append_singleton front b ih =>
    rw [List.length_append, List.length_singleton] at h ⊢
    rw [fromBeBytes_append_singleton, Nat.testBit_two_pow_mul_add _ b.toNat_lt]
    by_cases hi : i < 8
    · have hlast : front.length + 1 - 1 - i / 8 = front.length := by omega
      rw [if_pos hi, hlast, Nat.mod_eq_of_lt hi, List.getElem?_concat_length, Option.getD_some]
    · have hplace : front.length + 1 - 1 - i / 8 = front.length - 1 - (i - 8) / 8 := by omega
      have hmod : (i - 8) % 8 = i % 8 := by omega
      rw [if_neg hi, ih (by omega), hmod, hplace, List.getElem?_append_left (by omega)]

/-- Setting a byte sets its bits and no others. -/
theorem testBit_fromBeBytes_set (bytes : List UInt8) {i p : ℕ} (v : UInt8)
    (h : i < 8 * bytes.length) : (fromBeBytes (bytes.set p v)).testBit i =
      if p = bytes.length - 1 - i / 8 then v.toNat.testBit (i % 8)
      else (fromBeBytes bytes).testBit i := by
  rw [testBit_fromBeBytes _ (by rwa [List.length_set]), testBit_fromBeBytes _ h, List.length_set]
  split_ifs with hp
  · rw [hp, List.getElem?_set_self (by omega), Option.getD_some]
  · rw [List.getElem?_set_ne hp]

theorem fromBeBytes_toBeBytes {k n : ℕ} (h : n < 256 ^ k) : fromBeBytes (toBeBytes k n) = n := by
  induction k generalizing n with
  | zero =>
    have hzero : n = 0 := by simpa using h
    rw [hzero]
    rfl
  | succ k ih =>
    have hdiv : n / 256 < 256 ^ k := by
      rw [Nat.pow_succ] at h
      exact Nat.div_lt_of_lt_mul (by omega)
    rw [toBeBytes, fromBeBytes_append_singleton, ih hdiv, UInt8.toNat_ofNat']
    omega

theorem u16At_toBeBytes {x z : List UInt8} {i n : ℕ} (hi : i = x.length) (h : n < 2 ^ 16) :
    u16At (x ++ toBeBytes 2 n ++ z) i = some n := by
  have hn : fromBeBytes (toBeBytes 2 n) = n := fromBeBytes_toBeBytes (by omega)
  subst hi
  simp only [toBeBytes, List.nil_append, List.cons_append, List.append_assoc] at hn ⊢
  simp [u16At, hn]

theorem u32At_toBeBytes {x z : List UInt8} {i n : ℕ} (hi : i = x.length) (h : n < 2 ^ 32) :
    u32At (x ++ toBeBytes 4 n ++ z) i = some n := by
  have hn : fromBeBytes (toBeBytes 4 n) = n := fromBeBytes_toBeBytes (by omega)
  subst hi
  simp only [toBeBytes, List.nil_append, List.cons_append, List.append_assoc] at hn ⊢
  simp [u32At, hn]

theorem exists_u16At {b : List UInt8} {i : ℕ} (h : i + 1 < b.length) : ∃ n, u16At b i = some n := by
  have h₀ : i < b.length := by omega
  simp [u16At, h, h₀]

theorem exists_u32At {b : List UInt8} {i : ℕ} (h : i + 3 < b.length) : ∃ n, u32At b i = some n := by
  have h₀ : i < b.length := by omega
  have h₁ : i + 1 < b.length := by omega
  have h₂ : i + 2 < b.length := by omega
  simp [u32At, h, h₀, h₁, h₂]

/-- What an integer is does not depend on what follows it. -/
theorem u32At_append {x : List UInt8} {i : ℕ} (y : List UInt8) (h : i + 3 < x.length) :
    u32At (x ++ y) i = u32At x i := by
  have h₀ : i < x.length := by omega
  have h₁ : i + 1 < x.length := by omega
  have h₂ : i + 2 < x.length := by omega
  simp only [u32At, List.getElem?_append_left h, List.getElem?_append_left h₀,
    List.getElem?_append_left h₁, List.getElem?_append_left h₂]

end OpenAIGateway.Bytes
