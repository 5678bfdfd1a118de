import OpenAIGateway.WireToolUseIds

/-!
The key a conversation is pinned under: the hash of a client's session id, of
the blocks it marked cacheable, or of who is calling. Each form is a tag and
its parts, and the parts can be cut out again, so two requests that hash the
same bytes have the same form and the same parts.
-/

set_option linter.all false

namespace OpenAIGateway

open ToolUseIds

/-- A UUID as text: 32 digits and 4 hyphens. -/
structure UuidText where
  text : String
  length_bytes : (Ascii.bytes text).length = 36

/-- A stable identifier for a conversation. -/
structure SessionKey where
  text : String
  deriving DecidableEq

/-- What a request offers to derive its key from. -/
structure PinRequest where
  principalId : UuidText
  clientSession : Option String
  cacheBlocks : List String
  apiKeyId : UuidText
  model : String

namespace SessionKey

def hex (bytes : List UInt8) : String := String.ofList (bytes.flatMap (fun b => hexDigits 2 b.toNat))

/-- A block after its length, a word of 8 bytes. -/
def blockBytes (block : String) : List UInt8 :=
  toLeBytes 8 (Ascii.bytes block).length ++ Ascii.bytes block

def cacheBlocksMessage (scope : String) (blocks : List String) : List UInt8 :=
  Ascii.bytes "scope:" ++ Ascii.bytes scope ++ Ascii.bytes "|" ++ blocks.flatMap blockBytes

def clientSessionMessage (scope session : String) : List UInt8 :=
  Ascii.bytes "scope:" ++ Ascii.bytes scope ++ Ascii.bytes "|client-session:" ++
    Ascii.bytes session

def callerMessage (apiKeyId model : String) : List UInt8 :=
  Ascii.bytes "caller:" ++ Ascii.bytes apiKeyId ++ Ascii.bytes "|" ++ Ascii.bytes model

section Hash

variable (sha256 : List UInt8 → List UInt8)

/-- Derive from the prompt blocks the client marked cacheable. -/
def fromCacheBlocks (scope : String) (blocks : List String) : Option SessionKey :=
  if blocks = [] then none else some ⟨hex (sha256 (cacheBlocksMessage scope blocks))⟩

/-- Derive from a session identifier the client supplied. -/
def fromClientSession (scope session : String) : Option SessionKey :=
  if session = "" then none else some ⟨hex (sha256 (clientSessionMessage scope session))⟩

/-- Last resort: hash whatever weakly identifies the caller. -/
def fromCaller (apiKeyId model : String) : SessionKey :=
  ⟨hex (sha256 (callerMessage apiKeyId model))⟩

/-- The best available key, in descending order of precision. -/
def resolve (r : PinRequest) : SessionKey :=
  ((r.clientSession.bind (fromClientSession sha256 r.principalId.text)).or
    (fromCacheBlocks sha256 r.principalId.text r.cacheBlocks)).getD
      (fromCaller sha256 r.apiKeyId.text r.model)

end Hash

/-- What a key was derived from. -/
inductive Origin
  | clientSession (session : String)
  | cacheBlocks (blocks : List String)
  | caller (apiKeyId model : String)
  deriving DecidableEq

/-- The form `resolve` takes for a request. -/
def origin (r : PinRequest) : Origin :=
  match r.clientSession.filter (fun session => session ≠ "") with
  | some session => .clientSession session
  | none => if r.cacheBlocks = [] then .caller r.apiKeyId.text r.model else .cacheBlocks r.cacheBlocks

/-- The bytes that are hashed. -/
def Origin.message (scope : String) : Origin → List UInt8
  | .clientSession session => clientSessionMessage scope session
  | .cacheBlocks blocks => cacheBlocksMessage scope blocks
  | .caller apiKeyId model => callerMessage apiKeyId model

def message (r : PinRequest) : List UInt8 := (origin r).message r.principalId.text

/-- SHA-256 takes messages of fewer than 2^64 bits. -/
def sha256Limit : ℕ := 2305843009213693952

theorem resolve_eq (sha256 : List UInt8 → List UInt8) (r : PinRequest) :
    resolve sha256 r = ⟨hex (sha256 (message r))⟩ := by
  obtain ⟨principal, session, blocks, apiKey, model⟩ := r
  unfold resolve message origin fromCacheBlocks
  cases session with
  | none =>
    by_cases hblocks : blocks = []
    · simp [hblocks, Origin.message, fromCaller]
    · simp [hblocks, Origin.message]
  | some session =>
    by_cases hsession : session = ""
    · by_cases hblocks : blocks = []
      · simp [hblocks, hsession, fromClientSession, Option.filter, Origin.message, fromCaller]
      · simp [hblocks, hsession, fromClientSession, Option.filter, Origin.message]
    · simp [hsession, fromClientSession, Option.filter, Origin.message]

/-! What was hashed can be cut into its parts again. -/

theorem hex_injective {xs ys : List UInt8} (h : hex xs = hex ys) : xs = ys := by
  have hdigits := String.ofList_injective h
  induction xs generalizing ys with
  | nil =>
    cases ys with
    | nil => rfl
    | cons y ys => simp [hexDigits] at hdigits
  | cons x xs ih =>
    cases ys with
    | nil => simp [hexDigits] at hdigits
    | cons y ys =>
      rw [List.flatMap_cons, List.flatMap_cons] at hdigits
      obtain ⟨hbyte, hrest⟩ := List.append_inj hdigits (by rw [length_hexDigits, length_hexDigits])
      have hnat : x.toNat = y.toNat := hexDigits_injective x.toNat_lt y.toNat_lt hbyte
      rw [UInt8.toNat_inj.mp hnat, ih (congrArg String.ofList hrest) hrest]

theorem length_toLeBytes (k n : ℕ) : (toLeBytes k n).length = k := by
  induction k generalizing n with
  | zero => rfl
  | succ k ih => rw [toLeBytes, List.length_cons, ih]

theorem toLeBytes_injective {k n m : ℕ} (hn : n < 256 ^ k) (hm : m < 256 ^ k)
    (h : toLeBytes k n = toLeBytes k m) : n = m := by
  induction k generalizing n m with
  | zero =>
    rw [Nat.pow_zero] at hn hm
    omega
  | succ k ih =>
    rw [Nat.pow_succ] at hn hm
    rw [toLeBytes, toLeBytes] at h
    obtain ⟨hlow, hhigh⟩ := List.cons_eq_cons.mp h
    have hdiv : n / 256 = m / 256 := ih (by omega) (by omega) hhigh
    have hnat := congrArg UInt8.toNat hlow
    rw [UInt8.toNat_ofNat', UInt8.toNat_ofNat'] at hnat
    omega

/-- Where a block ends does not depend on what follows it. -/
theorem blockBytes_append_inj {x y : String} {xs ys : List UInt8}
    (hx : (Ascii.bytes x).length < sha256Limit) (hy : (Ascii.bytes y).length < sha256Limit)
    (h : blockBytes x ++ xs = blockBytes y ++ ys) : x = y ∧ xs = ys := by
  unfold blockBytes at h
  rw [List.append_assoc, List.append_assoc] at h
  obtain ⟨hword, hrest⟩ := List.append_inj h (by rw [length_toLeBytes, length_toLeBytes])
  have hlength : (Ascii.bytes x).length = (Ascii.bytes y).length := by
    unfold sha256Limit at hx hy
    exact toLeBytes_injective (by omega) (by omega) hword
  obtain ⟨hbytes, htail⟩ := List.append_inj hrest hlength
  exact ⟨Ascii.bytes_injective hbytes, htail⟩

theorem blocks_injective {xs ys : List String}
    (hxs : ∀ x ∈ xs, (Ascii.bytes x).length < sha256Limit)
    (hys : ∀ y ∈ ys, (Ascii.bytes y).length < sha256Limit)
    (h : xs.flatMap blockBytes = ys.flatMap blockBytes) : xs = ys := by
  have hne : ∀ (x : String) (rest : List UInt8), blockBytes x ++ rest ≠ [] := by
    intro x rest hnil
    cases (List.append_eq_nil_iff.mp (List.append_eq_nil_iff.mp hnil).1).1
  induction xs generalizing ys with
  | nil =>
    cases ys with
    | nil => rfl
    | cons y ys => exact absurd h.symm (hne y _)
  | cons x xs ih =>
    cases ys with
    | nil => exact absurd h (hne x _)
    | cons y ys =>
      obtain ⟨rfl, hrest⟩ := blockBytes_append_inj (hxs x List.mem_cons_self)
        (hys y List.mem_cons_self) h
      rw [ih (fun z hz => hxs z (List.mem_cons_of_mem _ hz))
        (fun z hz => hys z (List.mem_cons_of_mem _ hz)) hrest]

/-- The tag of a session is no length of a block: read as one it is beyond what SHA-256 takes. -/
theorem tag_ne_block {session block : String} {rest : List UInt8}
    (hblock : (Ascii.bytes block).length < sha256Limit) :
    Ascii.bytes "client-session:" ++ Ascii.bytes session ≠ blockBytes block ++ rest := by
  intro h
  have htag : Ascii.bytes "client-session:" =
      toLeBytes 8 8299417705810324579 ++ Ascii.bytes "ession:" := by decide
  unfold blockBytes at h
  rw [htag, List.append_assoc, List.append_assoc] at h
  obtain ⟨hword, -⟩ := List.append_inj h (by rw [length_toLeBytes, length_toLeBytes])
  unfold sha256Limit at hblock
  have hlength := toLeBytes_injective (by omega) (by omega) hword
  omega

/-- The principal is cut out of a scoped message, being of fixed length. -/
theorem scoped_inj {p q : UuidText} {xs ys : List UInt8}
    (h : Ascii.bytes "scope:" ++ Ascii.bytes p.text ++ xs =
      Ascii.bytes "scope:" ++ Ascii.bytes q.text ++ ys) : p.text = q.text ∧ xs = ys := by
  rw [List.append_assoc, List.append_assoc] at h
  obtain ⟨hprincipal, hrest⟩ := List.append_inj (List.append_cancel_left h)
    (p.length_bytes.trans q.length_bytes.symm)
  exact ⟨Ascii.bytes_injective hprincipal, hrest⟩

theorem clientSessionMessage_eq (scope session : String) :
    clientSessionMessage scope session = Ascii.bytes "scope:" ++ Ascii.bytes scope ++
      (Ascii.bytes "|" ++ (Ascii.bytes "client-session:" ++ Ascii.bytes session)) := by
  have htag : Ascii.bytes "|client-session:" =
      Ascii.bytes "|" ++ Ascii.bytes "client-session:" := by decide
  unfold clientSessionMessage
  rw [htag]
  simp only [List.append_assoc]

theorem cacheBlocksMessage_eq (scope : String) (blocks : List String) :
    cacheBlocksMessage scope blocks = Ascii.bytes "scope:" ++ Ascii.bytes scope ++
      (Ascii.bytes "|" ++ blocks.flatMap blockBytes) := by
  unfold cacheBlocksMessage
  rw [List.append_assoc]

/-- A block is no longer than the message it is in. -/
theorem length_block_lt {scope block : String} {blocks : List String} (hmem : block ∈ blocks)
    (h : (cacheBlocksMessage scope blocks).length < sha256Limit) :
    (Ascii.bytes block).length < sha256Limit := by
  have hblock : (blockBytes block).length ≤ (blocks.flatMap blockBytes).length :=
    (List.sublist_flatten_of_mem (List.mem_map_of_mem hmem)).length_le
  unfold cacheBlocksMessage at h
  unfold blockBytes at hblock h
  simp only [List.length_append] at h hblock
  omega

theorem session_ne_blocks {p q : UuidText} {session : String} {blocks : List String}
    (hne : blocks ≠ []) (hlimit : (cacheBlocksMessage q.text blocks).length < sha256Limit) :
    clientSessionMessage p.text session ≠ cacheBlocksMessage q.text blocks := by
  intro h
  obtain ⟨block, rest, rfl⟩ := List.exists_cons_of_ne_nil hne
  rw [clientSessionMessage_eq, cacheBlocksMessage_eq] at h
  have hrest := List.append_cancel_left (scoped_inj h).2
  exact tag_ne_block (length_block_lt List.mem_cons_self hlimit) hrest

theorem scoped_ne_caller {scope apiKeyId model : String} {xs : List UInt8} :
    Ascii.bytes "scope:" ++ Ascii.bytes scope ++ xs ≠ callerMessage apiKeyId model := by
  intro h
  have hscope : (Ascii.bytes "scope:" ++ Ascii.bytes scope ++ xs).head? = some 115 := rfl
  have hcaller : (callerMessage apiKeyId model).head? = some 99 := rfl
  rw [h, hcaller] at hscope
  cases hscope

theorem caller_inj {k l : UuidText} {model model' : String}
    (h : callerMessage k.text model = callerMessage l.text model') :
    k.text = l.text ∧ model = model' := by
  unfold callerMessage at h
  rw [List.append_assoc, List.append_assoc, List.append_assoc, List.append_assoc] at h
  obtain ⟨hkey, hrest⟩ := List.append_inj (List.append_cancel_left h)
    (k.length_bytes.trans l.length_bytes.symm)
  exact ⟨Ascii.bytes_injective hkey, Ascii.bytes_injective (List.append_cancel_left hrest)⟩

/-- What `resolve` goes by: a session that is not empty, blocks that are not none, or the caller. -/
theorem origin_cases (r : PinRequest) :
    (∃ session, origin r = .clientSession session) ∨
      (r.cacheBlocks ≠ [] ∧ origin r = .cacheBlocks r.cacheBlocks) ∨
      origin r = .caller r.apiKeyId.text r.model := by
  unfold origin
  split
  next session _ => exact Or.inl ⟨session, rfl⟩
  next =>
    by_cases hblocks : r.cacheBlocks = []
    · exact Or.inr (Or.inr (if_pos hblocks))
    · exact Or.inr (Or.inl ⟨hblocks, if_neg hblocks⟩)

/-- Requests that hash the same bytes derived their keys from the same, for one principal
where the principal is hashed and for one API key where it is not. -/
theorem message_injective {a b : PinRequest} (ha : (message a).length < sha256Limit)
    (hb : (message b).length < sha256Limit) (h : message a = message b) :
    origin a = origin b ∧
      (a.principalId.text = b.principalId.text ∨ a.apiKeyId.text = b.apiKeyId.text) := by
  unfold message at h ha hb
  rcases origin_cases a with ⟨s, hforma⟩ | ⟨hnea, hforma⟩ | hforma <;>
    rcases origin_cases b with ⟨t, hformb⟩ | ⟨hneb, hformb⟩ | hformb <;>
    rw [hforma] at h ha ⊢ <;> rw [hformb] at h hb ⊢ <;>
    simp only [Origin.message] at h ha hb
  · rw [clientSessionMessage_eq, clientSessionMessage_eq] at h
    obtain ⟨hprincipal, hrest⟩ := scoped_inj h
    have hsession := List.append_cancel_left (List.append_cancel_left hrest)
    exact ⟨congrArg Origin.clientSession (Ascii.bytes_injective hsession), Or.inl hprincipal⟩
  · exact absurd h (session_ne_blocks hneb hb)
  · rw [clientSessionMessage_eq] at h
    exact absurd h scoped_ne_caller
  · exact absurd h.symm (session_ne_blocks hnea ha)
  · have hxs : ∀ block ∈ a.cacheBlocks, (Ascii.bytes block).length < sha256Limit :=
      fun block hmem => length_block_lt hmem ha
    have hys : ∀ block ∈ b.cacheBlocks, (Ascii.bytes block).length < sha256Limit :=
      fun block hmem => length_block_lt hmem hb
    rw [cacheBlocksMessage_eq, cacheBlocksMessage_eq] at h
    obtain ⟨hprincipal, hrest⟩ := scoped_inj h
    have hblocks := blocks_injective hxs hys (List.append_cancel_left hrest)
    exact ⟨congrArg Origin.cacheBlocks hblocks, Or.inl hprincipal⟩
  · rw [cacheBlocksMessage_eq] at h
    exact absurd h scoped_ne_caller
  · rw [clientSessionMessage_eq] at h
    exact absurd h.symm scoped_ne_caller
  · rw [cacheBlocksMessage_eq] at h
    exact absurd h.symm scoped_ne_caller
  · obtain ⟨hkey, hmodel⟩ := caller_inj h
    exact ⟨by rw [hkey, hmodel], Or.inr hkey⟩

/-- Two requests have one key only if both derived it by the same form from the same session,
blocks or caller, for the same principal. SHA-256 is taken to tell messages apart that it takes,
and an API key belongs to one principal. -/
theorem resolve_injective (sha256 : List UInt8 → List UInt8)
    (hsha : ∀ m m', m.length < sha256Limit → m'.length < sha256Limit →
      sha256 m = sha256 m' → m = m')
    (a b : PinRequest) (ha : (message a).length < sha256Limit)
    (hb : (message b).length < sha256Limit)
    (howner : a.apiKeyId.text = b.apiKeyId.text → a.principalId.text = b.principalId.text)
    (h : resolve sha256 a = resolve sha256 b) :
    origin a = origin b ∧ a.principalId.text = b.principalId.text := by
  rw [resolve_eq, resolve_eq] at h
  have hhash := hex_injective (SessionKey.mk.inj h)
  obtain ⟨horigin, hscope⟩ := message_injective ha hb (hsha _ _ ha hb hhash)
  exact ⟨horigin, hscope.elim id howner⟩

theorem length_tenant : (Ascii.bytes "6f61672d-7072-496e-8370-616c2d6f6e65").length = 36 := by decide

theorem length_tenantKey : (Ascii.bytes "6f61672d-6b65-4f6e-8500-000000000001").length = 36 := by decide

/-- A request of one tenant in one session, marking these blocks. -/
def sessionRequest (cacheBlocks : List String) : PinRequest where
  principalId := ⟨"6f61672d-7072-496e-8370-616c2d6f6e65", length_tenant⟩
  clientSession := some "sess_abc"
  cacheBlocks := cacheBlocks
  apiKeyId := ⟨"6f61672d-6b65-4f6e-8500-000000000001", length_tenantKey⟩
  model := "anthropic/opus"

/-- The digest of the one message that the session's requests hash. -/
def sessionDigest : List UInt8 :=
  [0x70, 0x1f, 0x8a, 0x6f, 0x67, 0x45, 0xf2, 0xa4, 0x16, 0xe6, 0x8e,
    0x8b, 0x25, 0xbd, 0xa9, 0x78, 0x05, 0x9f, 0x39, 0x9f, 0x77, 0x8f,
    0x0d, 0xae, 0x29, 0x01, 0x6e, 0x86, 0xec, 0x8e, 0xba, 0x78]

/-- SHA-256 on that message; longer than a digest on every other. -/
def digestOrLonger (m : List UInt8) : List UInt8 :=
  if m = message (sessionRequest []) then sessionDigest else m ++ List.replicate 33 0

theorem digestOrLonger_injective {m m' : List UInt8} (h : digestOrLonger m = digestOrLonger m') :
    m = m' := by
  have hlonger : ∀ x : List UInt8, sessionDigest ≠ x ++ List.replicate 33 0 := by
    intro x heq
    have hlength := congrArg List.length heq
    rw [List.length_append, List.length_replicate] at hlength
    have hdigest : sessionDigest.length = 32 := rfl
    omega
  unfold digestOrLonger at h
  by_cases hm : m = message (sessionRequest [])
  · by_cases hm' : m' = message (sessionRequest [])
    · rw [hm, hm']
    · rw [if_pos hm, if_neg hm'] at h
      exact absurd h (hlonger m')
  · by_cases hm' : m' = message (sessionRequest [])
    · rw [if_neg hm, if_pos hm'] at h
      exact absurd h.symm (hlonger m)
    · rw [if_neg hm, if_neg hm'] at h
      exact List.append_cancel_right h

/-- Two turns of a session, one of them with a block marked. -/
theorem resolve_injective_session :
    origin (sessionRequest []) = origin (sessionRequest ["some prompt"]) ∧
      (sessionRequest []).principalId.text = (sessionRequest ["some prompt"]).principalId.text :=
  resolve_injective digestOrLonger (fun _ _ _ _ h => digestOrLonger_injective h) _ _ (by decide)
    (by decide) (fun _ => rfl) (by rw [resolve_eq, resolve_eq]; rfl)

end SessionKey

end OpenAIGateway
