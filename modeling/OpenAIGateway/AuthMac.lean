import OpenAIGateway.Render
import OpenAIGateway.SessionKeys
import OpenAIGateway.Split

/-!
Authenticated entries of the shared auth cache. An entry is the JSON of an
identity under a tag over a domain, the key's hash and that JSON. The hash is
hexadecimal, so the tagged bytes can be cut into the three again, and an entry
opens only where it was sealed.
-/

set_option linter.all false

namespace OpenAIGateway

open ToolUseIds (hexDigits)

/-- Authenticates auth-cache entries with the signing secret. -/
structure AuthMac where
  key : List UInt8

namespace AuthMac

def new (signingSecret : String) : AuthMac := ⟨Ascii.bytes signingSecret⟩

/-- Domain separation. -/
def authMacDomain : List UInt8 := Ascii.bytes "oag:auth-cache:v1"

def authEnvelopePrefix : String := "v1."

def hexValue (c : Char) : Option ℕ :=
  if '0' ≤ c ∧ c ≤ '9' then some (c.toNat - 48)
  else if 'a' ≤ c ∧ c ≤ 'f' then some (c.toNat - 87)
  else if 'A' ≤ c ∧ c ≤ 'F' then some (c.toNat - 55)
  else none

/-- `hex::decode`, which takes digits of either case. -/
def hexDecode : List Char → Option (List UInt8)
  | [] => some []
  | [_] => none
  | high :: low :: rest =>
    (hexValue high).bind (fun h => (hexValue low).bind (fun l =>
      (hexDecode rest).map (fun bytes => UInt8.ofNat (16 * h + l) :: bytes)))

/-- The tag is over domain, hash and JSON, separated by NUL. -/
def message (hash json : String) : List UInt8 :=
  authMacDomain ++ 0 :: (Ascii.bytes hash ++ 0 :: Ascii.bytes json)

/-- A stored entry as its tag and its JSON. -/
def envelope (stored : String) : Option (List UInt8 × String) :=
  (stripPrefix authEnvelopePrefix stored).bind (fun rest => (Split.splitOnce '.' rest).bind
    (fun parts => (hexDecode parts.1.toList).map (fun tag => (tag, parts.2))))

section Mac

variable {Ctx : Type*} (hmac : List UInt8 → List UInt8 → List UInt8)
  (toJson : Ctx → Option String) (fromJson : String → Option Ctx) (mac : AuthMac)

/-- Serialise and tag a context for storage under a hash. -/
def sealEntry (hash : String) (ctx : Ctx) : Option String :=
  (toJson ctx).map (fun json =>
    authEnvelopePrefix ++ SessionKey.hex (hmac mac.key (message hash json)) ++ "." ++ json)

/-- Verify and parse an entry stored under a hash. -/
def openEntry (hash stored : String) : Option Ctx :=
  (envelope stored).bind (fun entry =>
    if hmac mac.key (message hash entry.2) = entry.1 then fromJson entry.2 else none)

end Mac

/-- A key hash: lower-case hexadecimal. -/
def IsHex (hash : String) : Prop := ∀ c ∈ hash.toList, hexValue c ≠ none

/-- The holder of the secret and everyone else. `tagged` are the messages the
holder computed tags of, `stored` the strings an entry may hold, whoever wrote
them, and `brought` the messages and tags that can be worked out without the
secret, from what is stored or otherwise. The tags cannot be forged. -/
structure Exposure (hmac : List UInt8 → List UInt8 → List UInt8) (mac : AuthMac) where
  tagged : List UInt8 → Prop
  stored : String → Prop
  brought : List UInt8 → List UInt8 → Prop
  reads : ∀ s, stored s → ∀ tag json, envelope s = some (tag, json) →
    ∀ hash, brought (message hash json) tag
  unforgeable : ∀ m tag, brought m tag → hmac mac.key m = tag → tagged m

theorem hexValue_digitChar : ∀ d < 16, hexValue (Nat.digitChar d) = some d := by decide

theorem hexDigits_two (n : ℕ) :
    hexDigits 2 n = [Nat.digitChar (n / 16 % 16), Nat.digitChar (n % 16)] := rfl

theorem hexDecode_hexDigits (bytes : List UInt8) :
    hexDecode (bytes.flatMap (fun b => hexDigits 2 b.toNat)) = some bytes := by
  induction bytes with
  | nil => rfl
  | cons b bytes ih =>
    have hlt := b.toNat_lt
    have hvalue : 16 * (b.toNat / 16 % 16) + b.toNat % 16 = b.toNat := by omega
    rw [List.flatMap_cons, hexDigits_two]
    simp only [List.cons_append, List.nil_append, hexDecode]
    rw [hexValue_digitChar _ (by omega), hexValue_digitChar _ (by omega), ih]
    simp only [Option.bind_some, Option.map_some, hvalue, UInt8.ofNat_toNat]

theorem point_notMem_hex (bytes : List UInt8) : '.' ∉ (SessionKey.hex bytes).toList := by
  have hdigit : ∀ d < 16, Nat.digitChar d ≠ '.' := by decide
  unfold SessionKey.hex
  rw [String.toList_ofList, List.mem_flatMap]
  intro h
  obtain ⟨b, -, hmem⟩ := h
  rw [hexDigits_two] at hmem
  simp only [List.mem_cons, List.not_mem_nil, or_false] at hmem
  rcases hmem with h | h
  · exact hdigit _ (by omega) h.symm
  · exact hdigit _ (by omega) h.symm

/-- What is sealed reads back as its tag and its JSON. -/
theorem envelope_append (tag : List UInt8) (json : String) :
    envelope (authEnvelopePrefix ++ SessionKey.hex tag ++ "." ++ json) = some (tag, json) := by
  have hstrip : stripPrefix authEnvelopePrefix
      (authEnvelopePrefix ++ SessionKey.hex tag ++ "." ++ json) =
        some (SessionKey.hex tag ++ "." ++ json) := by
    rw [String.append_assoc, String.append_assoc, stripPrefix_append, String.append_assoc]
  have hsplit : Split.splitOnce '.' (SessionKey.hex tag ++ "." ++ json) =
      some (SessionKey.hex tag, json) := by
    rw [Split.splitOnce_eq_some_iff]
    exact ⟨by simp, point_notMem_hex tag⟩
  unfold envelope
  rw [hstrip, Option.bind_some, hsplit, Option.bind_some]
  unfold SessionKey.hex
  rw [String.toList_ofList, hexDecode_hexDigits]
  rfl

/-- A digit's byte is not the separator. -/
theorem zero_notMem_bytes {hash : String} (h : IsHex hash) : (0 : UInt8) ∉ Ascii.bytes hash := by
  intro hmem
  obtain ⟨c, hc, hbyte⟩ := List.mem_flatMap.mp hmem
  obtain ⟨hlt, hzero⟩ := Ascii.of_mem_encodeChar hbyte (by decide)
  have hnat : c.toNat = 0 := by
    have hmod := congrArg UInt8.toNat hzero
    rw [Ascii.byte, UInt8.toNat_ofNat'] at hmod
    simp at hmod
    omega
  have hchar : c = Char.ofNat 0 := by
    rw [← hnat, Char.ofNat_toNat]
  exact h c hc (by rw [hchar]; rfl)

/-- Up to the first separator. -/
theorem append_zero_inj {xs xs' ys ys' : List UInt8} (hxs : (0 : UInt8) ∉ xs)
    (hxs' : (0 : UInt8) ∉ xs') (h : xs ++ 0 :: ys = xs' ++ 0 :: ys') : xs = xs' ∧ ys = ys' := by
  induction xs generalizing xs' with
  | nil =>
    cases xs' with
    | nil => exact ⟨rfl, (List.cons.inj h).2⟩
    | cons x xs' => exact absurd ((List.cons.inj h).1 ▸ List.mem_cons_self) hxs'
  | cons x xs ih =>
    cases xs' with
    | nil => exact absurd ((List.cons.inj h).1 ▸ List.mem_cons_self) hxs
    | cons x' xs' =>
      obtain ⟨hx, hrest⟩ := List.cons.inj h
      obtain ⟨heq, htail⟩ := ih (fun hmem => hxs (List.mem_cons_of_mem x hmem))
        (fun hmem => hxs' (List.mem_cons_of_mem x' hmem)) hrest
      exact ⟨by rw [hx, heq], htail⟩

/-- The framing is unambiguous whatever the payload holds. -/
theorem message_inj {hash hash' json json' : String} (h : IsHex hash) (h' : IsHex hash')
    (heq : message hash json = message hash' json') : hash = hash' ∧ json = json' := by
  have hfields := List.append_cancel_left heq
  obtain ⟨hhash, hjson⟩ := append_zero_inj (zero_notMem_bytes h) (zero_notMem_bytes h')
    (List.cons.inj hfields).2
  exact ⟨Ascii.bytes_injective hhash, Ascii.bytes_injective hjson⟩

section Game

variable {Ctx : Type*} {hmac : List UInt8 → List UInt8 → List UInt8}
  {toJson : Ctx → Option String} {fromJson : String → Option Ctx} {mac : AuthMac}

/-- Our own entry opens where it was sealed. -/
theorem sealEntry_bind_openEntry
    (hjson : ∀ ctx, ∃ json, toJson ctx = some json ∧ fromJson json = some ctx)
    (hash : String) (ctx : Ctx) :
    (sealEntry hmac toJson mac hash ctx).bind (openEntry hmac fromJson mac hash) = some ctx := by
  obtain ⟨json, hto, hfrom⟩ := hjson ctx
  unfold sealEntry openEntry
  rw [hto, Option.map_some, Option.bind_some, envelope_append, Option.bind_some, if_pos rfl, hfrom]

/-- What opened was read off the entry, and its tag verified. -/
theorem of_openEntry {hash stored : String} {ctx : Ctx}
    (h : openEntry hmac fromJson mac hash stored = some ctx) :
    ∃ tag json, envelope stored = some (tag, json) ∧ hmac mac.key (message hash json) = tag ∧
      fromJson json = some ctx := by
  obtain ⟨⟨tag, json⟩, henvelope, hopen⟩ := Option.bind_eq_some_iff.mp h
  by_cases htag : hmac mac.key (message hash json) = tag
  · rw [if_pos htag] at hopen
    exact ⟨tag, json, henvelope, htag, hopen⟩
  · rw [if_neg htag] at hopen
    cases hopen

/-- The tags computed are those of what was sealed. `calls` are the contexts sealed,
each with the hash it was sealed under. -/
structure TagsSealed (toJson : Ctx → Option String) (calls : String → Ctx → Prop)
    (tagged : List UInt8 → Prop) : Prop where
  hashes : ∀ hash ctx, calls hash ctx → IsHex hash
  tags : ∀ m, tagged m → ∃ hash ctx json, calls hash ctx ∧ toJson ctx = some json ∧
    m = message hash json

/-- A tag that verifies was computed for this very JSON under this very hash. -/
theorem sealed_of_openEntry {calls : String → Ctx → Prop} (exposure : Exposure hmac mac)
    (htags : TagsSealed toJson calls exposure.tagged) {hash stored : String} (hhash : IsHex hash)
    (hstored : exposure.stored stored) {ctx : Ctx}
    (h : openEntry hmac fromJson mac hash stored = some ctx) :
    ∃ tag json, envelope stored = some (tag, json) ∧ fromJson json = some ctx ∧
      ∃ ctx', calls hash ctx' ∧ toJson ctx' = some json := by
  obtain ⟨tag, json, henvelope, htag, hfrom⟩ := of_openEntry h
  have hbrought := exposure.reads stored hstored tag json henvelope hash
  obtain ⟨hash', ctx', json', hcall, hto, heq⟩ :=
    htags.tags _ (exposure.unforgeable _ _ hbrought htag)
  obtain ⟨rfl, rfl⟩ := message_inj hhash (htags.hashes hash' ctx' hcall) heq
  exact ⟨tag, json, henvelope, hfrom, ctx', hcall, hto⟩

/-- Our own entries open, and nothing else does: what opens under a hash is a JSON that
was sealed under it, and an entry that is unsigned, or whose JSON was not sealed under the
hash, opens to nothing. -/
theorem opens_iff_sealed
    (hjson : ∀ ctx, ∃ json, toJson ctx = some json ∧ fromJson json = some ctx)
    {calls : String → Ctx → Prop} (exposure : Exposure hmac mac)
    (htags : TagsSealed toJson calls exposure.tagged) {hash : String} (hhash : IsHex hash) :
    (∀ ctx, (sealEntry hmac toJson mac hash ctx).bind (openEntry hmac fromJson mac hash) =
      some ctx) ∧
    (∀ stored, exposure.stored stored → ∀ ctx, openEntry hmac fromJson mac hash stored = some ctx →
      calls hash ctx ∧ ∃ tag json, envelope stored = some (tag, json) ∧ toJson ctx = some json) ∧
    ∀ stored, exposure.stored stored →
      (∀ tag json, envelope stored = some (tag, json) →
        ¬ ∃ ctx, calls hash ctx ∧ toJson ctx = some json) →
      openEntry hmac fromJson mac hash stored = none := by
  refine ⟨sealEntry_bind_openEntry hjson hash, ?_, ?_⟩
  · intro stored hstored ctx hopen
    obtain ⟨tag, json, henvelope, hfrom, ctx', hcall, hto⟩ :=
      sealed_of_openEntry exposure htags hhash hstored hopen
    obtain ⟨json', hto', hfrom'⟩ := hjson ctx'
    obtain rfl : json' = json := Option.some.inj (hto'.symm.trans hto)
    obtain rfl : ctx' = ctx := Option.some.inj (hfrom'.symm.trans hfrom)
    exact ⟨hcall, tag, json', henvelope, hto⟩
  · intro stored hstored hforeign
    cases hopen : openEntry hmac fromJson mac hash stored with
    | none => rfl
    | some ctx =>
      obtain ⟨tag, json, henvelope, -, ctx', hcall, hto⟩ :=
        sealed_of_openEntry exposure htags hhash hstored hopen
      exact absurd ⟨ctx', hcall, hto⟩ (hforeign tag json henvelope)

end Game

section Replay

/-- A key in front of the message, told apart for any two messages. -/
def keyed (key m : List UInt8) : List UInt8 := key ++ m

def flagJson (admin : Bool) : Option String := some (if admin then "true" else "false")

def flagOfJson (json : String) : Option Bool :=
  if json = "true" then some true else if json = "false" then some false else none

def someMac : AuthMac := new "hunter2"

/-- One identity was sealed, and its tag is replayed with any payload under any hash. -/
def replay : Exposure keyed someMac where
  tagged m := m = message "a1" "true"
  stored s := ∀ tag json, envelope s = some (tag, json) →
    tag = keyed someMac.key (message "a1" "true")
  brought _ tag := tag = keyed someMac.key (message "a1" "true")
  reads := fun _ hstored tag json henvelope _ => hstored tag json henvelope
  unforgeable := fun _ _ hbrought htag => List.append_cancel_left (htag.trans hbrought)

theorem replay_tagsSealed :
    TagsSealed flagJson (fun hash admin => hash = "a1" ∧ admin = true) replay.tagged where
  hashes := by
    rintro hash admin ⟨rfl, -⟩ c hc
    have hchars : c = 'a' ∨ c = '1' := by simpa using hc
    rcases hchars with rfl | rfl <;> decide
  tags := by
    intro m hm
    exact ⟨"a1", true, "true", ⟨rfl, rfl⟩, rfl, hm⟩

theorem replay_opens_iff_sealed :
    (∀ admin, (sealEntry keyed flagJson someMac "a1" admin).bind
      (openEntry keyed flagOfJson someMac "a1") = some admin) ∧
    (∀ stored, replay.stored stored → ∀ admin,
      openEntry keyed flagOfJson someMac "a1" stored = some admin →
      ("a1" = "a1" ∧ admin = true) ∧
        ∃ tag json, envelope stored = some (tag, json) ∧ flagJson admin = some json) ∧
    ∀ stored, replay.stored stored →
      (∀ tag json, envelope stored = some (tag, json) →
        ¬ ∃ admin, ("a1" = "a1" ∧ admin = true) ∧ flagJson admin = some json) →
      openEntry keyed flagOfJson someMac "a1" stored = none := by
  refine opens_iff_sealed ?_ replay replay_tagsSealed ?_
  · intro admin
    cases admin
    · exact ⟨"false", rfl, rfl⟩
    · exact ⟨"true", rfl, rfl⟩
  · exact replay_tagsSealed.hashes "a1" true ⟨rfl, rfl⟩

end Replay

end AuthMac

end OpenAIGateway
