import Mathlib.Data.List.Basic
import Mathlib.Tactic.Common

/-!
UTF-8 over lists of bytes. Decoding is the inverse of encoding and fails on
everything else, so two facts carry every argument about a decoded text: the
text's encoding is the bytes, and a newline byte is only ever a newline. The
lossy decoding never fails: it puts the replacement character where the strict
one gives up, and agrees with it everywhere else.
-/

set_option linter.all false

namespace OpenAIGateway.Utf8

def encode (text : List Char) : List UInt8 := text.flatMap String.utf8EncodeChar

def decode? (bytes : List UInt8) : Option (List Char) :=
  bytes.toByteArray.utf8Decode?.map Array.toList

/-- The line feed. -/
def newline : UInt8 := 10

@[simp] theorem encode_nil : encode [] = [] := rfl

@[simp] theorem encode_cons (c : Char) (text : List Char) :
    encode (c :: text) = String.utf8EncodeChar c ++ encode text := List.flatMap_cons

@[simp] theorem encode_append (xs ys : List Char) : encode (xs ++ ys) = encode xs ++ encode ys :=
  List.flatMap_append

theorem decode?_eq_some_iff (bytes : List UInt8) (text : List Char) :
    decode? bytes = some text ↔ encode text = bytes := by
  have hencode : ∀ t : List Char, (encode t).toByteArray = t.utf8Encode := fun _ => rfl
  constructor
  · intro h
    obtain ⟨chars, hchars, rfl⟩ := Option.map_eq_some_iff.mp h
    have hsome : bytes.toByteArray.utf8Decode?.isSome := by rw [hchars]; rfl
    have hbytes := ByteArray.utf8Encode_get_utf8Decode? (h := hsome)
    simp only [hchars, Option.get_some] at hbytes
    have hdata := congrArg (fun b : ByteArray => b.data.toList) (hencode chars.toList |>.trans hbytes)
    simpa using hdata
  · intro h
    unfold decode?
    rw [← h, hencode, List.utf8Decode?_utf8Encode]
    simp

theorem ofNat_eq_newline {n : ℕ} (h : newline = UInt8.ofNat n) : n % 256 = 10 := by
  have hval := congrArg UInt8.toNat h
  have hten : newline.toNat = 10 := rfl
  simpa [hten] using hval.symm

/-- No other character's encoding contains a newline byte. -/
theorem newline_mem_encodeChar {c : Char} (h : newline ∈ String.utf8EncodeChar c) : c = '\n' := by
  unfold String.utf8EncodeChar at h
  simp only at h
  split at h
  · have hval := ofNat_eq_newline (List.mem_singleton.mp h)
    apply Char.ext
    apply UInt32.toNat_inj.mp
    show c.val.toNat = 10
    omega
  · split at h
    · simp only [List.mem_cons, List.not_mem_nil, or_false] at h
      rcases h with h | h <;> have := ofNat_eq_newline h <;> omega
    · split at h
      · simp only [List.mem_cons, List.not_mem_nil, or_false] at h
        rcases h with h | h | h <;> have := ofNat_eq_newline h <;> omega
      · simp only [List.mem_cons, List.not_mem_nil, or_false] at h
        rcases h with h | h | h | h <;> have := ofNat_eq_newline h <;> omega

/-- No encoding contains a byte of the form `0b11111xxx`. -/
theorem toNat_lt_of_mem_encodeChar {c : Char} {b : UInt8} (h : b ∈ String.utf8EncodeChar c) :
    b.toNat < 0xF8 := by
  unfold String.utf8EncodeChar at h
  simp only at h
  split at h
  · rw [List.mem_singleton.mp h, UInt8.toNat_ofNat']
    omega
  · split at h
    · simp only [List.mem_cons, List.not_mem_nil, or_false] at h
      rcases h with h | h <;> rw [h, UInt8.toNat_ofNat'] <;> omega
    · split at h
      · simp only [List.mem_cons, List.not_mem_nil, or_false] at h
        rcases h with h | h | h <;> rw [h, UInt8.toNat_ofNat'] <;> omega
      · simp only [List.mem_cons, List.not_mem_nil, or_false] at h
        rcases h with h | h | h | h <;> rw [h, UInt8.toNat_ofNat'] <;> omega

theorem decode?_eq_none_of_mem {bytes : List UInt8} {b : UInt8} (h : b ∈ bytes)
    (hb : 0xF8 ≤ b.toNat) : decode? bytes = none := by
  cases hdecode : decode? bytes with
  | none => rfl
  | some text =>
    rw [decode?_eq_some_iff] at hdecode
    rw [← hdecode] at h
    obtain ⟨c, -, hmem⟩ := List.mem_flatMap.mp h
    have := toNat_lt_of_mem_encodeChar hmem
    omega

theorem newline_mem_encode_iff (text : List Char) : newline ∈ encode text ↔ '\n' ∈ text := by
  constructor
  · intro h
    obtain ⟨c, hc, hmem⟩ := List.mem_flatMap.mp h
    rwa [← newline_mem_encodeChar hmem]
  · intro h
    exact List.mem_flatMap.mpr ⟨'\n', h, by decide⟩

/-- A text whose bytes are cut at a newline is cut there as a text. -/
theorem encode_eq_append_newline {text : List Char} {l rest : List UInt8}
    (h : encode text = l ++ newline :: rest) :
    ∃ xs ys, text = xs ++ '\n' :: ys ∧ encode xs = l ∧ encode ys = rest := by
  induction text generalizing l with
  | nil => simp at h
  | cons c text ih =>
    rw [encode_cons] at h
    by_cases hc : c = '\n'
    · have hbyte : String.utf8EncodeChar c = [newline] := by
        rw [hc]
        decide
      rw [hbyte] at h
      cases l with
      | nil => exact ⟨[], text, by simp [hc], rfl, by simpa using h⟩
      | cons b l =>
        obtain ⟨hb, htail⟩ : newline = b ∧ encode text = l ++ newline :: rest := by simpa using h
        obtain ⟨xs, ys, rfl, rfl, hys⟩ := ih htail
        exact ⟨c :: xs, ys, rfl, by rw [encode_cons, hbyte, ← hb]; rfl, hys⟩
    · have hprefix : ∃ l', l = String.utf8EncodeChar c ++ l' ∧
          encode text = l' ++ newline :: rest := by
        rcases List.append_eq_append_iff.mp h with ⟨l', hl, htext⟩ | ⟨bs, hchar, hrest⟩
        · exact ⟨l', hl, htext⟩
        · cases bs with
          | nil => exact ⟨[], by simpa using hchar.symm, by simpa using hrest.symm⟩
          | cons b bs =>
            have hmem : newline ∈ String.utf8EncodeChar c := by
              rw [hchar, (List.cons.inj hrest).1]
              simp
            exact absurd (newline_mem_encodeChar hmem) hc
      obtain ⟨l', rfl, htext⟩ := hprefix
      obtain ⟨xs, ys, rfl, rfl, hys⟩ := ih htext
      exact ⟨c :: xs, ys, rfl, encode_cons c xs, hys⟩

/-- Decoding goes line by line. -/
theorem decode?_append_newline (l rest : List UInt8) :
    decode? (l ++ newline :: rest) =
      (decode? l).bind (fun xs => (decode? rest).map (fun ys => xs ++ '\n' :: ys)) := by
  apply Option.ext
  intro text
  rw [decode?_eq_some_iff]
  simp only [Option.bind_eq_some_iff, Option.map_eq_some_iff, decode?_eq_some_iff]
  constructor
  · intro h
    obtain ⟨xs, ys, rfl, hxs, hys⟩ := encode_eq_append_newline h
    exact ⟨xs, hxs, ys, hys, rfl⟩
  · rintro ⟨xs, rfl, ys, rfl, rfl⟩
    have hbyte : String.utf8EncodeChar '\n' = [newline] := by decide
    rw [encode_append, encode_cons, hbyte]
    rfl

def continuation (b : UInt8) : Bool := 0x80 ≤ b && b ≤ 0xBF

/-- Whether `b₁` may follow the lead byte `b₀` in a sequence of three bytes. -/
def startsThree (b₀ b₁ : UInt8) : Bool :=
  (b₀ == 0xE0 && 0xA0 ≤ b₁ && b₁ ≤ 0xBF) ||
  (0xE1 ≤ b₀ && b₀ ≤ 0xEC && continuation b₁) ||
  (b₀ == 0xED && 0x80 ≤ b₁ && b₁ ≤ 0x9F) ||
  (0xEE ≤ b₀ && b₀ ≤ 0xEF && continuation b₁)

/-- Whether `b₁` may follow the lead byte `b₀` in a sequence of four bytes. -/
def startsFour (b₀ b₁ : UInt8) : Bool :=
  (b₀ == 0xF0 && 0x90 ≤ b₁ && b₁ ≤ 0xBF) ||
  (0xF1 ≤ b₀ && b₀ ≤ 0xF3 && continuation b₁) ||
  (b₀ == 0xF4 && 0x80 ≤ b₁ && b₁ ≤ 0x8F)

/-- The number of ill-formed bytes one replacement character stands for: the
longest beginning of a well-formed sequence, and at least one byte. -/
def invalidLength : List UInt8 → ℕ
  | b₀ :: b₁ :: rest =>
    if startsFour b₀ b₁ && rest.head?.any continuation then 3
    else if startsThree b₀ b₁ || startsFour b₀ b₁ then 2
    else 1
  | _ => 1

/-- The character the bytes begin with, when they begin with one. -/
def next? (bytes : List UInt8) : Option Char := bytes.toByteArray.utf8DecodeChar? 0

def lossyFrom : ℕ → List UInt8 → List Char
  | _, [] => []
  | 0, _ => []
  | fuel + 1, bytes =>
    match next? bytes with
    | some c => c :: lossyFrom fuel (bytes.drop c.utf8Size)
    | none => '\uFFFD' :: lossyFrom fuel (bytes.drop (invalidLength bytes))

def lossy (bytes : List UInt8) : List Char := lossyFrom bytes.length bytes

theorem next?_encode_cons (c : Char) (text : List Char) : next? (encode (c :: text)) = some c := by
  unfold next?
  have hbytes : (encode (c :: text)).toByteArray = (c :: text).utf8Encode := rfl
  rw [hbytes, List.utf8DecodeChar?_utf8Encode_cons]

theorem lossyFrom_encode {fuel : ℕ} {text : List Char} (h : (encode text).length ≤ fuel) :
    lossyFrom fuel (encode text) = text := by
  induction text generalizing fuel with
  | nil => cases fuel <;> rfl
  | cons c text ih =>
    have hpos : 0 < (String.utf8EncodeChar c).length := by
      rw [String.length_utf8EncodeChar]
      exact c.utf8Size_pos
    have hdrop : (encode (c :: text)).drop c.utf8Size = encode text := by
      rw [encode_cons, ← String.length_utf8EncodeChar, List.drop_left]
    rw [encode_cons, List.length_append] at h
    obtain ⟨fuel, rfl⟩ : ∃ n, fuel = n + 1 := ⟨fuel - 1, by omega⟩
    rw [lossyFrom]
    · rw [next?_encode_cons]
      show c :: lossyFrom fuel ((encode (c :: text)).drop c.utf8Size) = c :: text
      rw [hdrop, ih (by omega)]
    · intro hnil
      rw [encode_cons, List.append_eq_nil_iff] at hnil
      simp [hnil.1] at hpos

/-- A well-formed text is decoded unchanged. -/
theorem lossy_encode (text : List Char) : lossy (encode text) = text := lossyFrom_encode (Nat.le_refl _)

end OpenAIGateway.Utf8
