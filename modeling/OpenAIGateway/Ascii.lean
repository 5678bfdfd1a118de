import OpenAIGateway.Percent
import OpenAIGateway.Utf8

/-!
Texts held to a pattern of ASCII bytes. The check reads bytes; a text that
passes it has one character for each byte, so the pattern may as well be read
over characters.
-/

set_option linter.all false

namespace OpenAIGateway.Ascii

def bytes (s : String) : List UInt8 := Utf8.encode s.toList

theorem bytes_injective {a b : String} (h : bytes a = bytes b) : a = b := by
  have hself := (Utf8.decode?_eq_some_iff (bytes b) b.toList).mpr rfl
  have hother := (Utf8.decode?_eq_some_iff (bytes b) a.toList).mpr h
  rw [hself] at hother
  exact (String.toList_inj.mp (Option.some.inj hother)).symm

/-- The character a byte stands for. -/
def char (b : UInt8) : Char := Char.ofNat b.toNat

def byte (c : Char) : UInt8 := UInt8.ofNat c.toNat

/-- The digits and the letters of either case. -/
def isAlphanumeric (b : UInt8) : Bool :=
  (0x30 ≤ b && b ≤ 0x39) || (0x41 ≤ b && b ≤ 0x5A) || (0x61 ≤ b && b ≤ 0x7A)

theorem toNat_lt_of_isAlphanumeric {b : UInt8} (h : isAlphanumeric b = true) : b.toNat < 128 := by
  simp only [isAlphanumeric, Bool.or_eq_true, Bool.and_eq_true, decide_eq_true_eq,
    UInt8.le_iff_toNat_le] at h
  have hle : b.toNat ≤ 0x39 ∨ b.toNat ≤ 0x5A ∨ b.toNat ≤ 0x7A := by
    rcases h with (h | h) | h
    · exact Or.inl h.2
    · exact Or.inr (Or.inl h.2)
    · exact Or.inr (Or.inr h.2)
  omega

theorem encodeChar_of_lt {c : Char} (h : c.toNat < 128) : String.utf8EncodeChar c = [byte c] := by
  unfold String.utf8EncodeChar
  simp only
  rw [if_pos (show c.val.toNat ≤ 0x7f from Nat.le_of_lt_succ h)]
  rfl

/-- An ASCII byte is only ever the character it stands for. -/
theorem of_mem_encodeChar {c : Char} {b : UInt8} (h : b ∈ String.utf8EncodeChar c)
    (hb : b.toNat < 128) : c.toNat < 128 ∧ byte c = b := by
  have hc : c.toNat < 128 := by
    by_contra hge
    have hval : ¬ c.val.toNat ≤ 0x7f := fun hle => hge (Nat.lt_succ_of_le hle)
    unfold String.utf8EncodeChar at h
    simp only [if_neg hval] at h
    split at h
    · simp only [List.mem_cons, List.not_mem_nil, or_false] at h
      rcases h with h | h <;> rw [h, UInt8.toNat_ofNat'] at hb <;> omega
    · split at h
      · simp only [List.mem_cons, List.not_mem_nil, or_false] at h
        rcases h with h | h | h <;> rw [h, UInt8.toNat_ofNat'] at hb <;> omega
      · simp only [List.mem_cons, List.not_mem_nil, or_false] at h
        rcases h with h | h | h | h <;> rw [h, UInt8.toNat_ofNat'] at hb <;> omega
  rw [encodeChar_of_lt hc] at h
  exact ⟨hc, (List.mem_singleton.mp h).symm⟩

theorem encodeChar_ne_nil (c : Char) : String.utf8EncodeChar c ≠ [] := by
  unfold String.utf8EncodeChar
  simp only
  split
  · exact List.cons_ne_nil _ _
  · split
    · exact List.cons_ne_nil _ _
    · split <;> exact List.cons_ne_nil _ _

theorem encode_eq_map {text : List Char} (h : ∀ c ∈ text, c.toNat < 128) :
    Utf8.encode text = text.map byte := by
  induction text with
  | nil => rfl
  | cons c text ih =>
    rw [Utf8.encode_cons, encodeChar_of_lt (h c List.mem_cons_self),
      ih (fun d hd => h d (List.mem_cons_of_mem c hd))]
    rfl

theorem char_byte {c : Char} (h : c.toNat < 128) : char (byte c) = c := by
  have hbyte : (byte c).toNat = c.toNat := by
    rw [byte, UInt8.toNat_ofNat']
    omega
  rw [char, hbyte, Char.ofNat_toNat]

/-- A text whose characters are all kept is escaped as itself. -/
theorem escape_eq_self {keep : UInt8 → Bool} {text : List Char}
    (h : ∀ c ∈ text, c.toNat < 128 ∧ keep (byte c) = true) :
    Percent.encode keep (Utf8.encode text) = text := by
  have hbytes := encode_eq_map fun c hc => (h c hc).1
  have hkept : ∀ b ∈ Utf8.encode text, keep b = true := by
    intro b hb
    rw [hbytes] at hb
    obtain ⟨c, hc, rfl⟩ := List.mem_map.mp hb
    exact (h c hc).2
  rw [Percent.encode_of_keep hkept, hbytes, List.map_map]
  exact (List.map_congr_left fun c hc => char_byte (h c hc).1).trans (List.map_id _)

/-- Between one and `max` bytes, each of them allowed. -/
def legal (ok : UInt8 → Bool) (max : ℕ) (s : String) : Bool :=
  decide (1 ≤ (bytes s).length) && decide ((bytes s).length ≤ max) && (bytes s).all ok

/-- The same read over characters. -/
structure Matches (ok : UInt8 → Bool) (max : ℕ) (s : String) : Prop where
  nonempty : 1 ≤ s.length
  length_le : s.length ≤ max
  chars : ∀ c ∈ s.toList, c.toNat < 128 ∧ ok (byte c) = true

theorem legal_iff_matches {ok : UInt8 → Bool} (hok : ∀ b, ok b = true → b.toNat < 128) (max : ℕ)
    (s : String) : legal ok max s = true ↔ Matches ok max s := by
  have hlength : (∀ c ∈ s.toList, c.toNat < 128) → (bytes s).length = s.length := by
    intro h
    rw [bytes, encode_eq_map h, List.length_map, String.length_toList]
  simp only [legal, Bool.and_eq_true, decide_eq_true_eq, List.all_eq_true]
  constructor
  · rintro ⟨⟨hpos, hmax⟩, hall⟩
    have hchars : ∀ c ∈ s.toList, c.toNat < 128 ∧ ok (byte c) = true := by
      intro c hc
      obtain ⟨b, hb⟩ := List.exists_mem_of_ne_nil _ (encodeChar_ne_nil c)
      have hmem : b ∈ bytes s := List.mem_flatMap.mpr ⟨c, hc, hb⟩
      obtain ⟨hlt, hbyte⟩ := of_mem_encodeChar hb (hok b (hall b hmem))
      exact ⟨hlt, by rw [hbyte]; exact hall b hmem⟩
    have heq := hlength (fun c hc => (hchars c hc).1)
    exact ⟨by omega, by omega, hchars⟩
  · intro h
    have hascii : ∀ c ∈ s.toList, c.toNat < 128 := fun c hc => (h.chars c hc).1
    have heq := hlength hascii
    refine ⟨⟨by have := h.nonempty; omega, by have := h.length_le; omega⟩, ?_⟩
    intro b hb
    rw [bytes, encode_eq_map hascii] at hb
    obtain ⟨c, hc, rfl⟩ := List.mem_map.mp hb
    exact (h.chars c hc).2

/-- Text built from allowed characters is legal when it has the right length. -/
theorem matches_ofList {ok : UInt8 → Bool} {max : ℕ} {text : List Char} (hne : text ≠ [])
    (hlen : text.length ≤ max) (hchars : ∀ c ∈ text, c.toNat < 128 ∧ ok (byte c) = true) :
    Matches ok max (String.ofList text) := by
  refine ⟨?_, ?_, ?_⟩
  · rw [String.length_ofList]
    exact List.length_pos_iff.mpr hne
  · rw [String.length_ofList]
    exact hlen
  · rw [String.toList_ofList]
    exact hchars

theorem char_toNat {b : UInt8} (h : b.toNat < 128) : (char b).toNat = b.toNat := by
  have hvalid : b.toNat.isValidChar := Or.inl (by omega)
  rw [char, Char.ofNat, dif_pos hvalid]
  rfl

theorem byte_char {b : UInt8} (h : b.toNat < 128) : byte (char b) = b := by
  apply UInt8.toNat_inj.mp
  rw [byte, char_toNat h, UInt8.toNat_ofNat']
  omega

end OpenAIGateway.Ascii
