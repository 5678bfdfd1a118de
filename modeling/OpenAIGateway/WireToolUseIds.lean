import OpenAIGateway.Ascii
import OpenAIGateway.Canonical
import OpenAIGateway.FunctionNames
import OpenAIGateway.Naming
import Mathlib.Algebra.Group.Nat.Defs

/-!
Tool-call ids as an upstream with a pattern must see them. An id inside the
pattern keeps its seat; any other is respelled byte by byte and, where that is
taken, cut and followed by a salted hash. Fewer than 256 salts never hash
alike, because every step of FNV-1a is a bijection of the hash so far.
-/

set_option linter.all false

namespace OpenAIGateway.ToolUseIds

open Naming

/-- The longest id the pattern takes. -/
def toolUseIdMax : ℕ := 64

/-- A byte Converse takes in an id. -/
def toolUseIdByte (b : UInt8) : Bool :=
  Ascii.isAlphanumeric b || (b == 0x5F || b == 0x2E || b == 0x3A || b == 0x2D)

/-- A byte Anthropic takes in an id: no `.` and no `:`. -/
def anthropicByte (b : UInt8) : Bool := Ascii.isAlphanumeric b || (b == 0x5F || b == 0x2D)

def toLeBytes : ℕ → ℕ → List UInt8
  | 0, _ => []
  | k + 1, n => UInt8.ofNat n :: toLeBytes k (n / 256)

def fnvStep (hash : UInt64) (b : UInt8) : UInt64 := (hash ^^^ b.toUInt64) * 0x100000001b3

/-- 64-bit FNV-1a over the bytes, then the salt's. -/
def fnv1a (bytes : List UInt8) (salt : ℕ) : UInt64 :=
  (bytes ++ toLeBytes 8 salt).foldl fnvStep 0xcbf29ce484222325

/-- The `k` low hexadecimal digits, padded with zeros. -/
def hexDigits : ℕ → ℕ → List Char
  | 0, _ => []
  | k + 1, n => hexDigits k (n / 16) ++ [Nat.digitChar (n % 16)]

def legal (ok : UInt8 → Bool) (id : String) : Bool := Ascii.legal ok toolUseIdMax id

/-- An id with every byte the pattern refuses replaced; ASCII, so held as characters. -/
def plain (ok : UInt8 → Bool) (id : String) : List Char :=
  (Ascii.bytes id).map (fun b => if ok b then Ascii.char b else '_')

/-- An id cut to leave room for a hash of the whole of it. -/
def salted (ok : UInt8 → Bool) (id : String) (salt : ℕ) : String :=
  let stem := (plain ok id).take (min (plain ok id).length (toolUseIdMax - 17))
  String.ofList (stem ++ '_' :: hexDigits 16 (fnv1a (Ascii.bytes id) salt).toNat)

def respellToolUseId (ok : UInt8 → Bool) (id : String) (taken : List String) : String :=
  let plain := plain ok id
  if 1 ≤ plain.length ∧ plain.length ≤ toolUseIdMax ∧ String.ofList plain ∉ taken then
    String.ofList plain
  else
    (((List.range (taken.length + 1)).map (salted ok id)).find?
      (fun candidate => candidate ∉ taken)).getD id

def blockId : ContentBlock → Option String
  | .toolUse id _ _ => some id
  | .toolResult toolUseId _ _ => some toolUseId
  | _ => none

/-- Every id the history names, in calls and in the results that answer them. -/
def historyIds (req : CanonicalRequest) : List String :=
  (req.messages.flatMap Message.content).filterMap blockId

/-- The spellings taken, and the map so far. -/
structure Respelling where
  taken : List String
  ids : ToolUseIds := {}

def Respelling.add (ok : UInt8 → Bool) (r : Respelling) (id : String) : Respelling :=
  let wire := respellToolUseId ok id r.taken
  { taken := r.taken.insert wire
    ids := { toWire := (id, wire) :: r.ids.toWire, fromWire := (wire, id) :: r.ids.fromWire } }

def fromRequestBy (ok : UInt8 → Bool) (req : CanonicalRequest) : ToolUseIds :=
  let ids := firstSeen (historyIds req)
  ((ids.filter (fun id => !legal ok id)).foldl (Respelling.add ok)
    { taken := ids.filter (legal ok) }).ids

/-- The ids Converse would refuse, respelled. -/
def fromRequest (req : CanonicalRequest) : ToolUseIds := fromRequestBy toolUseIdByte req

/-- The same for Anthropic. -/
def forAnthropic (req : CanonicalRequest) : ToolUseIds := fromRequestBy anthropicByte req

/-! Salts below 256 hash apart. -/

/-- The prime is odd, so multiplying by it is undone by its inverse. -/
theorem mul_prime_injective {x y : UInt64} (h : x * 0x100000001b3 = y * 0x100000001b3) : x = y := by
  have hinverse : ∀ z : UInt64, z * 0x100000001b3 * 14886173955864302971 = z := by
    intro z
    rw [UInt64.mul_assoc]
    exact UInt64.mul_one z
  rw [← hinverse x, ← hinverse y, h]

theorem foldl_fnvStep_injective (bytes : List UInt8) {x y : UInt64}
    (h : bytes.foldl fnvStep x = bytes.foldl fnvStep y) : x = y := by
  induction bytes generalizing x y with
  | nil => exact h
  | cons b bytes ih => exact (UInt64.xor_left_inj _).mp (mul_prime_injective (ih h))

theorem fnvStep_byte_injective (x : UInt64) {b c : UInt8} (h : fnvStep x b = fnvStep x c) : b = c :=
  UInt8.toUInt64_inj.mp ((UInt64.xor_right_inj _).mp (mul_prime_injective h))

theorem fnv1a_salt_injective (bytes : List UInt8) {s t : ℕ} (hs : s < 256) (ht : t < 256)
    (h : fnv1a bytes s = fnv1a bytes t) : s = t := by
  have hbytes : ∀ n, n < 256 → toLeBytes 8 n = UInt8.ofNat n :: toLeBytes 7 0 := by
    intro n hn
    rw [toLeBytes, Nat.div_eq_of_lt hn]
  rw [fnv1a, fnv1a, List.foldl_append, List.foldl_append, hbytes s hs, hbytes t ht, List.foldl_cons,
    List.foldl_cons] at h
  have hbyte := fnvStep_byte_injective _ (foldl_fnvStep_injective _ h)
  have hnat := congrArg UInt8.toNat hbyte
  rw [UInt8.toNat_ofNat', UInt8.toNat_ofNat'] at hnat
  omega

theorem digitChar_injective : ∀ a < 16, ∀ b < 16, Nat.digitChar a = Nat.digitChar b → a = b := by
  decide

@[simp] theorem length_hexDigits (k n : ℕ) : (hexDigits k n).length = k := by
  induction k generalizing n with
  | zero => rfl
  | succ k ih => rw [hexDigits, List.length_append, ih, List.length_singleton]

theorem hexDigits_injective {k n m : ℕ} (hn : n < 16 ^ k) (hm : m < 16 ^ k)
    (h : hexDigits k n = hexDigits k m) : n = m := by
  induction k generalizing n m with
  | zero =>
    rw [Nat.pow_zero] at hn hm
    omega
  | succ k ih =>
    rw [Nat.pow_succ] at hn hm
    rw [hexDigits, hexDigits] at h
    obtain ⟨hhigh, hlow⟩ := List.append_inj h (by rw [length_hexDigits, length_hexDigits])
    have hdiv : n / 16 = m / 16 := ih (by omega) (by omega) hhigh
    have hmod : n % 16 = m % 16 :=
      digitChar_injective _ (by omega) _ (by omega) (List.singleton_inj.mp hlow)
    omega

theorem salted_injective (ok : UInt8 → Bool) (id : String) {s t : ℕ} (hs : s < 256) (ht : t < 256)
    (h : salted ok id s = salted ok id t) : s = t := by
  have hlist := String.ofList_injective h
  have hdigits := List.tail_eq_of_cons_eq (List.append_cancel_left hlist)
  have hbound : ∀ x : UInt64, x.toNat < 16 ^ 16 := fun x => x.toNat_lt
  exact fnv1a_salt_injective (Ascii.bytes id) hs ht
    (UInt64.toNat_inj.mp (hexDigits_injective (hbound _) (hbound _) hdigits))

/-! Every spelling is inside the pattern and free. -/

/-- What a pattern must allow for the respelling to stay inside it. -/
structure Alphabet (ok : UInt8 → Bool) : Prop where
  ascii : ∀ b, ok b = true → b.toNat < 128
  alphanumeric : ∀ b, Ascii.isAlphanumeric b = true → ok b = true
  underscore : ok 0x5F = true

theorem alphabet_converse : Alphabet toolUseIdByte where
  ascii := by
    intro b h
    simp only [toolUseIdByte, Bool.or_eq_true, beq_iff_eq] at h
    rcases h with h | ((h | h) | h) | h
    · exact Ascii.toNat_lt_of_isAlphanumeric h
    all_goals
      rw [h]
      decide
  alphanumeric := by
    intro b h
    rw [toolUseIdByte, h, Bool.true_or]
  underscore := rfl

theorem alphabet_anthropic : Alphabet anthropicByte where
  ascii := by
    intro b h
    simp only [anthropicByte, Bool.or_eq_true, beq_iff_eq] at h
    rcases h with h | h | h
    · exact Ascii.toNat_lt_of_isAlphanumeric h
    all_goals
      rw [h]
      decide
  alphanumeric := by
    intro b h
    rw [anthropicByte, h, Bool.true_or]
  underscore := rfl

section Respell

variable {ok : UInt8 → Bool} (hok : Alphabet ok)
include hok

theorem mem_plain {id : String} {c : Char} (h : c ∈ plain ok id) :
    c.toNat < 128 ∧ ok (Ascii.byte c) = true := by
  obtain ⟨b, -, rfl⟩ := List.mem_map.mp h
  by_cases hb : ok b = true
  · rw [if_pos hb, Ascii.byte_char (hok.ascii b hb), Ascii.char_toNat (hok.ascii b hb)]
    exact ⟨hok.ascii b hb, hb⟩
  · rw [if_neg hb]
    exact ⟨by decide, hok.underscore⟩

theorem mem_hexDigits {k n : ℕ} {c : Char} (h : c ∈ hexDigits k n) :
    c.toNat < 128 ∧ ok (Ascii.byte c) = true := by
  have hdigit : ∀ d < 16, (Nat.digitChar d).toNat < 128 ∧
      Ascii.isAlphanumeric (Ascii.byte (Nat.digitChar d)) = true := by decide
  induction k generalizing n with
  | zero => cases h
  | succ k ih =>
    rcases List.mem_append.mp h with h | h
    · exact ih h
    · obtain ⟨hlt, halpha⟩ := hdigit (n % 16) (by omega)
      rw [List.mem_singleton.mp h]
      exact ⟨hlt, hok.alphanumeric _ halpha⟩

theorem salted_matches (id : String) (salt : ℕ) : Ascii.Matches ok 64 (salted ok id salt) := by
  apply Ascii.matches_ofList
  · exact List.append_ne_nil_of_right_ne_nil _ (List.cons_ne_nil _ _)
  · rw [List.length_append, List.length_cons, length_hexDigits, List.length_take, toolUseIdMax]
    omega
  · intro c hc
    rcases List.mem_append.mp hc with hc | hc
    · exact mem_plain hok (List.mem_of_mem_take hc)
    · rcases List.mem_cons.mp hc with hc | hc
      · rw [hc]
        exact ⟨by decide, hok.underscore⟩
      · exact mem_hexDigits hok hc

theorem respell_spec (id : String) {taken : List String} (hfew : taken.length < 256) :
    Ascii.Matches ok 64 (respellToolUseId ok id taken) ∧ respellToolUseId ok id taken ∉ taken := by
  unfold respellToolUseId
  by_cases hplain : 1 ≤ (plain ok id).length ∧ (plain ok id).length ≤ toolUseIdMax ∧
      String.ofList (plain ok id) ∉ taken
  · simp only [if_pos hplain]
    refine ⟨Ascii.matches_ofList ?_ hplain.2.1 (fun c hc => mem_plain hok hc), hplain.2.2⟩
    exact List.ne_nil_of_length_pos hplain.1
  · simp only [if_neg hplain]
    obtain ⟨i, hi, hfree⟩ := exists_free taken (salted ok id)
      (fun i j hi hj h => salted_injective ok id (by omega) (by omega) h)
    obtain ⟨wire, hwire⟩ : ∃ wire, ((List.range (taken.length + 1)).map (salted ok id)).find?
        (fun candidate => candidate ∉ taken) = some wire := by
      apply Option.isSome_iff_exists.mp
      refine List.find?_isSome.mpr ⟨salted ok id i, List.mem_map_of_mem ?_, by simpa using hfree⟩
      exact List.mem_range.mpr (by omega)
    obtain ⟨salt, -, hsalt⟩ := List.mem_map.mp (List.mem_of_find?_eq_some hwire)
    have hnot : wire ∉ taken := by simpa using List.find?_some hwire
    rw [hwire, Option.getD_some]
    exact ⟨hsalt ▸ salted_matches hok id salt, hnot⟩

/-- What holds of the map at every moment, once the legal ids have their seats. -/
structure Respelt (ok : UInt8 → Bool) (legals done : List String) (r : Respelling) : Prop where
  oneToOne : OneToOne r.ids.toWire
  fromWire : r.ids.fromWire = r.ids.toWire.map Prod.swap
  keys : ∀ id, id ∈ r.ids.toWire.map Prod.fst ↔ id ∈ done
  wires : ∀ w ∈ r.ids.toWire.map Prod.snd, w ∈ r.taken ∧ w ∉ legals ∧ Ascii.Matches ok 64 w
  seated : ∀ id ∈ legals, id ∈ r.taken
  length : r.taken.length ≤ legals.length + done.length

theorem respelt_add {legals done : List String} {r : Respelling} (h : Respelt ok legals done r)
    {id : String} (hid : id ∉ done) (hfew : legals.length + done.length < 256) :
    Respelt ok legals (id :: done) (r.add ok id) := by
  have hlength := h.length
  obtain ⟨hmatches, hfree⟩ := respell_spec hok id (show r.taken.length < 256 by omega)
  have htaken : ∀ w ∈ r.taken, w ∈ r.taken.insert (respellToolUseId ok id r.taken) :=
    fun w hw => List.mem_insert_iff.mpr (Or.inr hw)
  refine ⟨?_, ?_, ?_, ?_, fun x hx => htaken x (h.seated x hx), ?_⟩
  · exact h.oneToOne.cons (fun hk => hid ((h.keys id).mp hk)) (fun hv => hfree (h.wires _ hv).1)
  · exact congrArg (List.cons _) h.fromWire
  · intro x
    exact List.mem_cons.trans ((or_congr_right (h.keys x)).trans List.mem_cons.symm)
  · intro w hw
    rcases List.mem_cons.mp hw with rfl | hw
    · exact ⟨List.mem_insert_self, fun hl => hfree (h.seated _ hl), hmatches⟩
    · exact ⟨htaken w (h.wires w hw).1, (h.wires w hw).2⟩
  · have hinsert : (r.taken.insert (respellToolUseId ok id r.taken)).length = r.taken.length + 1 :=
      List.length_insert_of_not_mem hfree
    show (r.taken.insert (respellToolUseId ok id r.taken)).length ≤ _
    rw [hinsert, List.length_cons]
    omega

theorem respelt_foldl {legals done ids : List String} {r : Respelling} (h : Respelt ok legals done r)
    (hnodup : ids.Nodup) (hdone : ∀ id ∈ ids, id ∉ done)
    (hfew : legals.length + done.length + ids.length ≤ 255) :
    Respelt ok legals (ids.reverse ++ done) (ids.foldl (Respelling.add ok) r) := by
  induction ids generalizing done r with
  | nil => exact h
  | cons id ids ih =>
    obtain ⟨hid, hrest⟩ := List.nodup_cons.mp hnodup
    rw [List.length_cons] at hfew
    have hnext := ih (respelt_add hok h (hdone id List.mem_cons_self) (by omega)) hrest (by
      intro x hx hmem
      rcases List.mem_cons.mp hmem with rfl | hmem
      · exact hid hx
      · exact hdone x (List.mem_cons_of_mem _ hx) hmem) (by rw [List.length_cons]; omega)
    rwa [List.reverse_cons, List.append_assoc, List.singleton_append]

/-- The whole map: the ids outside the pattern, each respelled apart from the rest and from the
legal ones. -/
theorem fromRequestBy_spec (req : CanonicalRequest) (hfew : (historyIds req).toFinset.card < 256) :
    ∃ r : Respelling, r.ids = fromRequestBy ok req ∧
      Respelt ok ((firstSeen (historyIds req)).filter (legal ok))
        ((firstSeen (historyIds req)).filter (fun id => !legal ok id)).reverse r := by
  have hlength := length_firstSeen (historyIds req)
  have hparts := List.length_eq_length_filter_add (l := firstSeen (historyIds req)) (legal ok)
  have hstart : Respelt ok ((firstSeen (historyIds req)).filter (legal ok)) []
      { taken := (firstSeen (historyIds req)).filter (legal ok) } :=
    ⟨OneToOne.nil, rfl, fun id => Iff.rfl, fun w hw => absurd hw List.not_mem_nil,
      fun id hid => hid, Nat.le_refl _⟩
  have hnodup := (nodup_firstSeen (historyIds req)).filter (fun id => !legal ok id)
  have hend := respelt_foldl hok hstart hnodup
    (fun id _ => List.not_mem_nil) (by rw [List.length_nil]; omega)
  rw [List.append_nil] at hend
  exact ⟨_, rfl, hend⟩

end Respell

/-- The map takes a history's ids to spellings inside a pattern and back. -/
structure Faithful (ok : UInt8 → Bool) (ids : ToolUseIds) (history : List String) : Prop where
  accepted : ∀ id ∈ history, Ascii.Matches ok 64 (ids.wire id)
  injective : ∀ id ∈ history, ∀ id' ∈ history, ids.wire id = ids.wire id' → id = id'
  unchanged : ∀ id ∈ history, legal ok id = true → ids.wire id = id
  restored : ∀ id ∈ history, ids.original (ids.wire id) = id

theorem Respelt.faithful {ok : UInt8 → Bool} (hok : Alphabet ok) {history : List String} {r : Respelling}
    (h : Respelt ok (history.filter (legal ok)) (history.filter (fun id => !legal ok id)).reverse r) :
    Faithful ok r.ids history := by
  have hkeys : ∀ id, id ∈ r.ids.toWire.map Prod.fst ↔ id ∈ history ∧ legal ok id = false := by
    intro id
    rw [h.keys, List.mem_reverse, List.mem_filter, Bool.not_eq_true']
  have hlegal : ∀ id, legal ok id = true → r.ids.wire id = id := by
    intro id hid
    rw [wire, lookup_eq_none_of_notMem, Option.getD_none]
    intro hmem
    rw [((hkeys id).mp hmem).2] at hid
    cases hid
  have hother : ∀ id ∈ history, legal ok id = false →
      ∃ w, (id, w) ∈ r.ids.toWire ∧ r.ids.wire id = w := by
    intro id hid hbad
    obtain ⟨⟨k, w⟩, hp, hfst⟩ := List.mem_map.mp ((hkeys id).mpr ⟨hid, hbad⟩)
    obtain rfl : k = id := hfst
    exact ⟨w, hp, by rw [wire, h.oneToOne.lookup_of_mem hp, Option.getD_some]⟩
  have hrestored : ∀ id ∈ history, r.ids.original (r.ids.wire id) = id := by
    intro id hid
    cases hl : legal ok id with
    | true =>
      -- A legal id is nobody's respelling, so the way back leaves it alone.
      rw [hlegal id hl, original, h.fromWire, lookup_eq_none_of_notMem, Option.getD_none]
      intro hmem
      rw [List.map_map] at hmem
      exact (h.wires id hmem).2.1 (List.mem_filter.mpr ⟨hid, hl⟩)
    | false =>
      obtain ⟨w, hw, heq⟩ := hother id hid hl
      rw [heq, original, h.fromWire, h.oneToOne.lookup_swap_of_mem hw, Option.getD_some]
  refine ⟨?_, ?_, fun id _ hl => hlegal id hl, hrestored⟩
  · intro id hid
    cases hl : legal ok id with
    | true =>
      rw [hlegal id hl]
      exact (Ascii.legal_iff_matches hok.ascii 64 id).mp hl
    | false =>
      obtain ⟨w, hw, heq⟩ := hother id hid hl
      rw [heq]
      exact (h.wires w (List.mem_map_of_mem hw)).2.2
  · intro id hid id' hid' heq
    rw [← hrestored id hid, heq, hrestored id' hid']

theorem fromRequestBy_faithful {ok : UInt8 → Bool} (hok : Alphabet ok) (req : CanonicalRequest)
    (hfew : (historyIds req).toFinset.card < 256) :
    Faithful ok (fromRequestBy ok req) (historyIds req) := by
  obtain ⟨r, hids, hr⟩ := fromRequestBy_spec hok req hfew
  obtain ⟨haccepted, hinjective, hunchanged, hrestored⟩ := hids ▸ hr.faithful hok
  simp only [mem_firstSeen] at haccepted hinjective hunchanged hrestored
  exact ⟨haccepted, hinjective, hunchanged, hrestored⟩

/-- Both renderers send every id of a history of fewer than 256 in a spelling of its own that the
upstream takes, leave a legal one as it is, and restore what they sent. -/
theorem toolUseIds_faithful (req : CanonicalRequest) (hfew : (historyIds req).toFinset.card < 256) :
    Faithful toolUseIdByte (fromRequest req) (historyIds req) ∧
      Faithful anthropicByte (forAnthropic req) (historyIds req) :=
  ⟨fromRequestBy_faithful alphabet_converse req hfew,
    fromRequestBy_faithful alphabet_anthropic req hfew⟩

/-- A Gemini call and its result, read by Converse. -/
theorem toolUseIds_gemini_call :
    let req : CanonicalRequest :=
      { messages :=
          [{ role := .assistant, content := [.toolUse "read_file#1" "read_file" (.obj [])] },
            { role := .user, content := [.toolResult "read_file#1" (.text "ok") false] }] }
    historyIds req = ["read_file#1", "read_file#1"] ∧
      (fromRequest req).original ((fromRequest req).wire "read_file#1") = "read_file#1" :=
  ⟨rfl, (toolUseIds_faithful _ (by decide)).1.restored _ (by decide)⟩

end OpenAIGateway.ToolUseIds
