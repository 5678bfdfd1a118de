import OpenAIGateway.Ascii
import OpenAIGateway.Bytes
import OpenAIGateway.UsagePlan

/-!
The identity of an imported row, in two languages. The importer asks a library
for a version 5 uuid; a migration has the same bytes hashed and overwrites the
version and the variant itself.
-/

set_option linter.all false

namespace OpenAIGateway.UsageImport

/-- The namespace of imported rows. -/
def importNamespace : Uuid := 0x6f61672575736167655f696d706f7274

def Uuid.variant (u : Uuid) : ℕ := (u.extractLsb' 62 2).toNat

/-- The bytes of the namespace and then of the name. -/
def hashedBytes (ns : Uuid) (name : String) : List UInt8 :=
  Bytes.toBeBytes 16 ns.toNat ++ Ascii.bytes name

variable (sha1 : List UInt8 → List UInt8)

/-- A name's uuid as the standard has it: the first bits of a digest, but for the version and
the variant. -/
structure IsV5 (ns : Uuid) (newV5 : String → Uuid) : Prop where
  version : ∀ name, (newV5 name).version = 5
  variant : ∀ name, (newV5 name).variant = 2
  digest : ∀ name i, i < 62 ∨ 64 ≤ i ∧ i < 76 ∨ 80 ≤ i ∧ i < 128 → (newV5 name).getLsbD i =
    (Bytes.fromBeBytes ((sha1 (hashedBytes ns name)).take 16)).testBit i

/-- `oag_import_uuid_v5`: a byte is read, masked and set again. -/
def oagImportUuidV5 (ns : Uuid) (name : String) : Uuid :=
  let h := (sha1 (hashedBytes ns name)).take 16
  let h := h.set 6 ((h[6]?.getD 0 &&& 15) ||| 80)
  let h := h.set 8 ((h[8]?.getD 0 &&& 63) ||| 128)
  BitVec.ofNat 128 (Bytes.fromBeBytes h)

/-- Overwriting the high bits of a byte. -/
theorem testBit_overwritten (b : UInt8) {mask bits : UInt8} {m v : ℕ}
    (hmask : mask.toNat = 2 ^ m - 1) (hbits : bits.toNat = 2 ^ m * v) (k : ℕ) :
    ((b &&& mask) ||| bits).toNat.testBit k =
      if k < m then b.toNat.testBit k else v.testBit (k - m) := by
  rw [UInt8.toNat_or, UInt8.toNat_and, hmask, hbits, Nat.testBit_or, Nat.testBit_and,
    Nat.testBit_two_pow_sub_one, Nat.testBit_two_pow_mul]
  split_ifs with hk
  · simp [hk]
  · simp [hk, not_lt.mp hk]

variable {sha1} {ns : Uuid} {newV5 : String → Uuid}

theorem toNat_extractLsb'_eq_iff {u : Uuid} {start len n : ℕ} (hn : n < 2 ^ len) :
    (u.extractLsb' start len).toNat = n ↔ ∀ j < len, u.getLsbD (start + j) = n.testBit j := by
  constructor
  · intro h j hj
    rw [← h, BitVec.testBit_toNat, BitVec.getLsbD_extractLsb', decide_eq_true hj, Bool.true_and]
  · intro h
    apply Nat.eq_of_testBit_eq
    intro j
    rw [BitVec.testBit_toNat, BitVec.getLsbD_extractLsb']
    by_cases hj : j < len
    · rw [decide_eq_true hj, Bool.true_and, h j hj]
    · have hle : n < 2 ^ j := hn.trans_le (Nat.pow_le_pow_right (by decide) (not_lt.mp hj))
      rw [decide_eq_false hj, Bool.false_and, Nat.testBit_lt_two_pow hle]

/-- The bits of what the migration makes of a digest. -/
theorem getLsbD_oagImportUuidV5 (hlen : ∀ bytes, (sha1 bytes).length = 20) (name : String) {i : ℕ}
    (hi : i < 128) : (oagImportUuidV5 sha1 ns name).getLsbD i =
      if i / 8 = 7 ∧ 6 ≤ i % 8 then (2).testBit (i % 8 - 6)
      else if i / 8 = 9 ∧ 4 ≤ i % 8 then (5).testBit (i % 8 - 4)
      else (Bytes.fromBeBytes ((sha1 (hashedBytes ns name)).take 16)).testBit i := by
  unfold oagImportUuidV5
  generalize hhash : (sha1 (hashedBytes ns name)).take 16 = hash
  have hlen : hash.length = 16 := by
    rw [← hhash, List.length_take, hlen]
    rfl
  rw [BitVec.getLsbD_ofNat, decide_eq_true hi, Bool.true_and,
    Bytes.testBit_fromBeBytes_set _ _ (by simp only [List.length_set]; omega),
    Bytes.testBit_fromBeBytes_set _ _ (by omega), List.length_set, hlen]
  have hbits := Bytes.testBit_fromBeBytes hash (i := i) (by omega)
  rw [hlen] at hbits
  by_cases hvariant : 8 = 16 - 1 - i / 8
  · rw [← hvariant] at hbits
    rw [if_pos hvariant, testBit_overwritten _ (m := 6) (v := 2) rfl rfl,
      List.getElem?_set_ne (by decide), ← hbits]
    split_ifs <;> first | rfl | omega
  · rw [if_neg hvariant]
    by_cases hversion : 6 = 16 - 1 - i / 8
    · rw [← hversion] at hbits
      rw [if_pos hversion, testBit_overwritten _ (m := 4) (v := 5) rfl rfl, ← hbits]
      split_ifs <;> first | rfl | omega
    · rw [if_neg hversion]
      split_ifs <;> first | rfl | omega

/-- The migration's function gives the uuid of the standard. -/
theorem isV5_oagImportUuidV5 (hlen : ∀ bytes, (sha1 bytes).length = 20) :
    IsV5 sha1 ns (oagImportUuidV5 sha1 ns) where
  version name := by
    refine (toNat_extractLsb'_eq_iff (by decide)).mpr fun j hj => ?_
    rw [getLsbD_oagImportUuidV5 hlen name (by omega), if_neg (by omega), if_pos (by omega)]
    congr 1
    omega
  variant name := by
    refine (toNat_extractLsb'_eq_iff (by decide)).mpr fun j hj => ?_
    rw [getLsbD_oagImportUuidV5 hlen name (by omega), if_pos (by omega)]
    congr 1
    omega
  digest name i hi := by
    rw [getLsbD_oagImportUuidV5 hlen name (by omega), if_neg (by omega), if_neg (by omega)]

/-- The standard leaves no choice. -/
theorem IsV5.unique {newV5' : String → Uuid} (h : IsV5 sha1 ns newV5) (h' : IsV5 sha1 ns newV5') :
    newV5 = newV5' := by
  funext name
  apply BitVec.eq_of_getLsbD_eq
  intro i hi
  by_cases hdigest : i < 62 ∨ 64 ≤ i ∧ i < 76 ∨ 80 ≤ i ∧ i < 128
  · rw [h.digest name i hdigest, h'.digest name i hdigest]
  · by_cases hvariant : i < 64
    · have hplace : i = 62 + (i - 62) := by omega
      have hj : i - 62 < 2 := by omega
      rw [hplace, (toNat_extractLsb'_eq_iff (by decide)).mp (h.variant name) _ hj,
        (toNat_extractLsb'_eq_iff (by decide)).mp (h'.variant name) _ hj]
    · have hplace : i = 76 + (i - 76) := by omega
      have hj : i - 76 < 4 := by omega
      rw [hplace, (toNat_extractLsb'_eq_iff (by decide)).mp (h.version name) _ hj,
        (toNat_extractLsb'_eq_iff (by decide)).mp (h'.version name) _ hj]

end OpenAIGateway.UsageImport
