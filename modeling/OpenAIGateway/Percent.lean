import Mathlib.Data.List.Basic
import Mathlib.Data.UInt
import Mathlib.Tactic.Common

/-!
Percent-encoding: a byte that is kept is the character it stands for, and any
other is `%` and its two hexadecimal digits in upper case. Decoding reads every
encoding back, so an encoding determines its bytes.
-/

set_option linter.all false

namespace Percent

/-- The digit of a number below sixteen. -/
def upperHex (n : ℕ) : Char := if n < 10 then Char.ofNat (48 + n) else Char.ofNat (55 + n)

def hexValue (c : Char) : Option ℕ :=
  if 48 ≤ c.toNat ∧ c.toNat ≤ 57 then some (c.toNat - 48)
  else if 65 ≤ c.toNat ∧ c.toNat ≤ 70 then some (c.toNat - 55)
  else if 97 ≤ c.toNat ∧ c.toNat ≤ 102 then some (c.toNat - 87)
  else none

def encodeByte (keep : UInt8 → Bool) (b : UInt8) : List Char :=
  if keep b then [Char.ofNat b.toNat]
  else ['%', upperHex (b.toNat / 16), upperHex (b.toNat % 16)]

def encode (keep : UInt8 → Bool) (bytes : List UInt8) : List Char :=
  bytes.flatMap (encodeByte keep)

/-- A `%` that two digits do not follow is a byte like any other. -/
def decode : List Char → List UInt8
  | [] => []
  | [c] => [UInt8.ofNat c.toNat]
  | [c, x] => [UInt8.ofNat c.toNat, UInt8.ofNat x.toNat]
  | c :: x :: y :: rest =>
    if c = '%' then
      match hexValue x, hexValue y with
      | some hi, some lo => UInt8.ofNat (16 * hi + lo) :: decode rest
      | _, _ => UInt8.ofNat c.toNat :: decode (x :: y :: rest)
    else UInt8.ofNat c.toNat :: decode (x :: y :: rest)

/-- The bytes kept are ASCII, and `%` is not among them. -/
def Safe (keep : UInt8 → Bool) : Prop := ∀ b, keep b = true → b.toNat < 128 ∧ b.toNat ≠ 37

/-- The digits of an upper-case byte. -/
def UpperHex (c : Char) : Prop := ∃ n < 16, c = upperHex n

theorem hexValue_upperHex : ∀ n < 16, hexValue (upperHex n) = some n := by decide

theorem decode_cons_of_ne {c : Char} (h : c ≠ '%') (rest : List Char) :
    decode (c :: rest) = UInt8.ofNat c.toNat :: decode rest := by
  match rest with
  | [] => rfl
  | [_] => rfl
  | _ :: _ :: _ => rw [decode, if_neg h]

theorem decode_hex {hi lo : ℕ} (hhi : hi < 16) (hlo : lo < 16) (rest : List Char) :
    decode ('%' :: upperHex hi :: upperHex lo :: rest) =
      UInt8.ofNat (16 * hi + lo) :: decode rest := by
  rw [decode, if_pos rfl, hexValue_upperHex hi hhi, hexValue_upperHex lo hlo]

theorem toNat_ofNat {b : UInt8} (h : b.toNat < 128) : (Char.ofNat b.toNat).toNat = b.toNat := by
  have hvalid : b.toNat.isValidChar := Or.inl (by omega)
  rw [Char.ofNat, dif_pos hvalid]
  rfl

section Safe

variable {keep : UInt8 → Bool}

theorem decode_encodeByte (hsafe : Safe keep) (b : UInt8) (rest : List Char) :
    decode (encodeByte keep b ++ rest) = b :: decode rest := by
  unfold encodeByte
  cases hkeep : keep b with
  | true =>
    obtain ⟨hlt, hne⟩ := hsafe b hkeep
    have hchar : Char.ofNat b.toNat ≠ '%' := by
      intro heq
      have := congrArg Char.toNat heq
      rw [toNat_ofNat hlt] at this
      exact hne this
    rw [if_pos rfl, List.singleton_append, decode_cons_of_ne hchar, toNat_ofNat hlt,
      UInt8.ofNat_toNat]
  | false =>
    have hlt : b.toNat < 256 := b.toNat_lt
    have hdigits : 16 * (b.toNat / 16) + b.toNat % 16 = b.toNat := Nat.div_add_mod _ _
    rw [if_neg (by decide)]
    change decode ('%' :: upperHex (b.toNat / 16) :: upperHex (b.toNat % 16) :: rest) = _
    rw [decode_hex (by omega) (by omega), hdigits, UInt8.ofNat_toNat]

theorem decode_encode_append (hsafe : Safe keep) (bytes : List UInt8) (rest : List Char) :
    decode (encode keep bytes ++ rest) = bytes ++ decode rest := by
  induction bytes with
  | nil => rfl
  | cons b bytes ih =>
    have hcons : encode keep (b :: bytes) = encodeByte keep b ++ encode keep bytes :=
      List.flatMap_cons
    rw [hcons, List.append_assoc, decode_encodeByte hsafe, ih, List.cons_append]

/-- An encoding is read back. -/
theorem decode_encode (hsafe : Safe keep) (bytes : List UInt8) :
    decode (encode keep bytes) = bytes := by
  have h := decode_encode_append hsafe bytes []
  simpa [decode] using h

theorem encode_injective (hsafe : Safe keep) : Function.Injective (encode keep) :=
  Function.LeftInverse.injective (decode_encode hsafe)

end Safe

/-- An encoding is made of kept bytes and of escapes in upper case. -/
theorem mem_encode {keep : UInt8 → Bool} {bytes : List UInt8} {c : Char}
    (h : c ∈ encode keep bytes) :
    (∃ b, keep b = true ∧ c = Char.ofNat b.toNat) ∨ c = '%' ∨ UpperHex c := by
  obtain ⟨b, -, hc⟩ := List.mem_flatMap.mp h
  unfold encodeByte at hc
  split at hc
  next hkeep => exact .inl ⟨b, hkeep, List.mem_singleton.mp hc⟩
  next =>
    have hlt : b.toNat < 256 := b.toNat_lt
    simp only [List.mem_cons, List.not_mem_nil, or_false] at hc
    rcases hc with rfl | rfl | rfl
    · exact .inr (.inl rfl)
    · exact .inr (.inr ⟨_, by omega, rfl⟩)
    · exact .inr (.inr ⟨_, by omega, rfl⟩)

/-- One byte's encoding: itself when it is kept, and its escape. -/
def IsUnit (keep : UInt8 → Bool) (encoded : List Char) : Prop :=
  (∃ b, keep b = true ∧ encoded = [Char.ofNat b.toNat]) ∨
    ∃ hi < 16, ∃ lo < 16, encoded = ['%', upperHex hi, upperHex lo]

theorem isUnit_encodeByte (keep : UInt8 → Bool) (b : UInt8) : IsUnit keep (encodeByte keep b) := by
  have hlt : b.toNat < 256 := b.toNat_lt
  unfold encodeByte
  split
  next hkeep => exact .inl ⟨b, hkeep, rfl⟩
  next => exact .inr ⟨_, by omega, _, by omega, rfl⟩

/-- Bytes that are all kept are the characters they stand for. -/
theorem encode_of_keep {keep : UInt8 → Bool} {bytes : List UInt8}
    (h : ∀ b ∈ bytes, keep b = true) :
    encode keep bytes = bytes.map (fun b => Char.ofNat b.toNat) := by
  induction bytes with
  | nil => rfl
  | cons b bytes ih =>
    have hcons : encode keep (b :: bytes) = encodeByte keep b ++ encode keep bytes :=
      List.flatMap_cons
    rw [hcons, ih (fun b' hb' => h b' (List.mem_cons_of_mem _ hb')), encodeByte,
      if_pos (h b List.mem_cons_self)]
    rfl

end Percent
