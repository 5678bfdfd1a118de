import OpenAIGateway.CloudPaths
import OpenAIGateway.Periods
import OpenAIGateway.SessionKeys
import OpenAIGateway.Spacing

/-!
AWS Signature Version 4. What the signer signs is compared with the reference:
the request's headers in lower case and sorted, their values with every run of
whitespace made one space, and the path encoded once.
-/

set_option linter.all false

namespace OpenAIGateway.SigV4

open Periods (padded)

abbrev Text := List Char

structure Credentials where
  accessKeyId : String
  secretAccessKey : String
  sessionToken : Option String

structure SignedHeaders where
  authorization : Text
  amzDate : Text
  contentSha256 : Text
  sessionToken : Option String

structure SigningRequest where
  method : String
  path : String
  host : String
  body : List UInt8

/-- An instant in UTC, in the years a date may be in. -/
structure Timestamp where
  year : ℤ
  month : ℕ
  day : ℕ
  hour : ℕ
  minute : ℕ
  second : ℕ
  year_mem : -9999 ≤ year ∧ year ≤ 9999
  month_mem : 1 ≤ month ∧ month ≤ 12
  day_mem : 1 ≤ day ∧ day ≤ 31
  hour_lt : hour < 24
  minute_lt : minute < 60
  second_lt : second < 60

/-- `YYYYMMDDTHHMMSSZ`. -/
def formatAmzDate (t : Timestamp) : Text :=
  (padded 4 t.year).toList ++ (padded 2 t.month).toList ++ (padded 2 t.day).toList ++
    'T' :: (padded 2 t.hour).toList ++ (padded 2 t.minute).toList ++ (padded 2 t.second).toList ++
    ['Z']

/-- The day, which is cut off the front of the instant. -/
def dateStamp (t : Timestamp) : Text := (formatAmzDate t).take 8

def uriEncodeBytes (path : List UInt8) : Text :=
  Percent.encode (fun b => CloudPaths.isUnreserved b || b == 0x2F) path

def uriEncodePath (path : String) : Text := uriEncodeBytes (Ascii.bytes path)

def joined (sep : Text) (texts : List Text) : Text := sep.intercalate texts

section Hash

variable (sha256 : List UInt8 → List UInt8) (hmac : List UInt8 → List UInt8 → List UInt8)

def payloadHash (body : List UInt8) : Text := (SessionKey.hex (sha256 body)).toList

/-- What is signed with the request, by name. -/
def headers (creds : Credentials) (req : SigningRequest) (t : Timestamp) : List (String × Text) :=
  ([("host", req.host.toList), ("x-amz-content-sha256", payloadHash sha256 req.body),
      ("x-amz-date", formatAmzDate t)] ++
    (creds.sessionToken.map fun token => ("x-amz-security-token", token.toList)).toList).mergeSort
    fun a b => a.1 ≤ b.1

def canonicalHeaders (headers : List (String × Text)) : Text :=
  headers.flatMap fun header => header.1.toList ++ ':' :: Sse.trim header.2 ++ ['\n']

def signedHeaders (headers : List (String × Text)) : Text :=
  joined [';'] (headers.map fun header => header.1.toList)

def canonicalRequest (creds : Credentials) (req : SigningRequest) (t : Timestamp) : Text :=
  let headers := headers sha256 creds req t
  req.method.toList ++ '\n' :: uriEncodePath req.path ++ "\n\n".toList ++
    canonicalHeaders headers ++ '\n' :: signedHeaders headers ++ '\n' ::
    payloadHash sha256 req.body

def scope (region service : String) (t : Timestamp) : Text :=
  dateStamp t ++ '/' :: region.toList ++ '/' :: service.toList ++ "/aws4_request".toList

def stringToSign (creds : Credentials) (region service : String) (req : SigningRequest)
    (t : Timestamp) : Text :=
  "AWS4-HMAC-SHA256\n".toList ++ formatAmzDate t ++ '\n' :: scope region service t ++ '\n' ::
    (SessionKey.hex (sha256 (Utf8.encode (canonicalRequest sha256 creds req t)))).toList

/-- The key is chained down the scope, from its day. -/
def signingKey (creds : Credentials) (region service : String) (day : Text) : List UInt8 :=
  let kDate := hmac (Ascii.bytes ("AWS4" ++ creds.secretAccessKey)) (Utf8.encode day)
  let kRegion := hmac kDate (Ascii.bytes region)
  let kService := hmac kRegion (Ascii.bytes service)
  hmac kService (Ascii.bytes "aws4_request")

/-- The header a signature is sent in. -/
def authorization (accessKeyId : String) (scope signedHeaders : Text) (signature : List UInt8) :
    Text :=
  "AWS4-HMAC-SHA256 Credential=".toList ++ accessKeyId.toList ++ '/' :: scope ++
    ", SignedHeaders=".toList ++ signedHeaders ++ ", Signature=".toList ++
    (SessionKey.hex signature).toList

def sign (creds : Credentials) (region service : String) (req : SigningRequest) (t : Timestamp) :
    SignedHeaders where
  authorization := authorization creds.accessKeyId (scope region service t)
    (signedHeaders (headers sha256 creds req t))
    (hmac (signingKey hmac creds region service (dateStamp t))
      (Utf8.encode (stringToSign sha256 creds region service req t)))
  amzDate := formatAmzDate t
  contentSha256 := payloadHash sha256 req.body
  sessionToken := creds.sessionToken

/-! The reference, over any headers under any names. -/

namespace Reference

def lower (name : String) : String := String.ofList (name.toList.map Char.toLower)

/-- Without the whitespace around a value, and with every run within it one space. -/
def trimAll (value : Text) : Text := Spacing.collapse Sse.isWhitespace ' ' (Sse.trim value)

def sorted (headers : List (String × Text)) : List (String × Text) :=
  (headers.map fun header => (lower header.1, header.2)).mergeSort fun a b => a.1 ≤ b.1

def canonicalHeaders (headers : List (String × Text)) : Text :=
  (sorted headers).flatMap fun header => header.1.toList ++ ':' :: trimAll header.2 ++ ['\n']

def signedHeaders (headers : List (String × Text)) : Text :=
  joined [';'] ((sorted headers).map fun header => header.1.toList)

/-- `YYYYMMDD`. -/
def date (t : Timestamp) : Text :=
  (padded 4 t.year).toList ++ (padded 2 t.month).toList ++ (padded 2 t.day).toList

def instant (t : Timestamp) : Text :=
  date t ++ 'T' :: (padded 2 t.hour).toList ++ (padded 2 t.minute).toList ++
    (padded 2 t.second).toList ++ ['Z']

def headers (creds : Credentials) (req : SigningRequest) (t : Timestamp) : List (String × Text) :=
  [("Host", req.host.toList), ("X-Amz-Content-Sha256", payloadHash sha256 req.body),
    ("X-Amz-Date", instant t)] ++
    (creds.sessionToken.map fun token => ("X-Amz-Security-Token", token.toList)).toList

/-- The method, the path, an empty query, the headers, their names and the payload's hash. -/
def canonicalRequest (creds : Credentials) (req : SigningRequest) (t : Timestamp) : Text :=
  joined ['\n'] [req.method.toList, uriEncodePath req.path, [],
    canonicalHeaders (headers sha256 creds req t), signedHeaders (headers sha256 creds req t),
    payloadHash sha256 req.body]

def scope (region service : String) (t : Timestamp) : Text :=
  joined ['/'] [date t, region.toList, service.toList, "aws4_request".toList]

def stringToSign (creds : Credentials) (region service : String) (req : SigningRequest)
    (t : Timestamp) : Text :=
  joined ['\n'] ["AWS4-HMAC-SHA256".toList, instant t, scope region service t,
    (SessionKey.hex (sha256 (Utf8.encode (canonicalRequest sha256 creds req t)))).toList]

def authorization (creds : Credentials) (region service : String) (req : SigningRequest)
    (t : Timestamp) : Text :=
  SigV4.authorization creds.accessKeyId (scope region service t)
    (signedHeaders (headers sha256 creds req t))
    (hmac (signingKey hmac creds region service (date t))
      (Utf8.encode (stringToSign sha256 creds region service req t)))

end Reference

end Hash

/-- A value with no whitespace in it, once trimmed, but single spaces. -/
def Spaced (value : Text) : Prop := Spacing.Single Sse.isWhitespace ' ' (Sse.trim value)

/-- A path is encoded so that it can be read back, of the characters a URI may have. -/
structure EncodesPaths : Prop where
  injective : Function.Injective uriEncodeBytes
  emitted : ∀ path, ∃ units : List Text, uriEncodeBytes path = units.flatten ∧
    ∀ encoded ∈ units,
      Percent.IsUnit (fun b => CloudPaths.isUnreserved b || b == 0x2F) encoded
  decoded : ∀ path, Percent.decode (uriEncodeBytes path) = path

/-- The request as it is hashed and the string as it is signed are the reference's, and so is the
header; names are in lower case and in order. -/
structure SignsReference (sha256 : List UInt8 → List UInt8) (creds : Credentials)
    (region service : String) (req : SigningRequest) (t : Timestamp) : Prop where
  lowercase : ∀ header ∈ headers sha256 creds req t, Reference.lower header.1 = header.1
  sorted : (headers sha256 creds req t).Pairwise fun a b => a.1 < b.1
  request : canonicalRequest sha256 creds req t = Reference.canonicalRequest sha256 creds req t
  signed : stringToSign sha256 creds region service req t =
    Reference.stringToSign sha256 creds region service req t
  authorization : ∀ hmac, (sign sha256 hmac creds region service req t).authorization =
    Reference.authorization sha256 hmac creds region service req t

theorem safe_path : Percent.Safe (fun b => CloudPaths.isUnreserved b || b == 0x2F) := by
  intro b h
  rcases Bool.or_eq_true_iff.mp h with h | h
  · exact CloudPaths.safe_isUnreserved b h
  · rw [beq_iff_eq] at h
    rw [h]
    decide

theorem encodesPaths : EncodesPaths where
  injective := Percent.encode_injective safe_path
  emitted path := by
    refine ⟨path.map (Percent.encodeByte _), List.flatMap_def, ?_⟩
    intro encoded hmem
    obtain ⟨b, -, rfl⟩ := List.mem_map.mp hmem
    exact Percent.isUnit_encodeByte _ b
  decoded := Percent.decode_encode safe_path

/-! The headers are already in order, under names already in lower case. -/

section Headers

variable (sha256 : List UInt8 → List UInt8) (creds : Credentials) (req : SigningRequest)
  (t : Timestamp)

theorem formatAmzDate_eq : formatAmzDate t = Reference.instant t := by
  simp only [formatAmzDate, Reference.instant, Reference.date, List.append_assoc]

/-- The headers, put in order by hand. -/
def inOrder : List (String × Text) :=
  [("host", req.host.toList), ("x-amz-content-sha256", payloadHash sha256 req.body),
    ("x-amz-date", formatAmzDate t)] ++
    (creds.sessionToken.map fun token => ("x-amz-security-token", token.toList)).toList

theorem pairwise_inOrder : (inOrder sha256 creds req t).Pairwise fun a b => a.1 < b.1 := by
  have hthree : ["host", "x-amz-content-sha256", "x-amz-date"].Pairwise (· < ·) := by decide
  have hnames : ["host", "x-amz-content-sha256", "x-amz-date", "x-amz-security-token"].Pairwise
      (· < ·) := by decide
  unfold inOrder
  cases creds.sessionToken with
  | none => exact List.pairwise_map.mp hthree
  | some token => exact List.pairwise_map.mp hnames

theorem lower_inOrder :
    ∀ header ∈ inOrder sha256 creds req t, Reference.lower header.1 = header.1 := by
  intro header hheader
  rcases List.mem_append.mp hheader with h | h
  · simp only [List.mem_cons, List.not_mem_nil, or_false] at h
    rcases h with rfl | rfl | rfl
    · exact (by decide : Reference.lower "host" = "host")
    · exact (by decide : Reference.lower "x-amz-content-sha256" = "x-amz-content-sha256")
    · exact (by decide : Reference.lower "x-amz-date" = "x-amz-date")
  · obtain ⟨token, -, rfl⟩ := Option.map_eq_some_iff.mp (Option.mem_toList.mp h)
    exact (by decide : Reference.lower "x-amz-security-token" = "x-amz-security-token")

theorem sort_inOrder : (inOrder sha256 creds req t).mergeSort (fun a b => a.1 ≤ b.1) =
    inOrder sha256 creds req t :=
  List.mergeSort_of_pairwise <|
    (pairwise_inOrder sha256 creds req t).imp fun h => decide_eq_true (le_of_lt h)

theorem headers_eq : headers sha256 creds req t = inOrder sha256 creds req t :=
  sort_inOrder sha256 creds req t

theorem sorted_reference : Reference.sorted (Reference.headers sha256 creds req t) =
    headers sha256 creds req t := by
  have hlower : (Reference.headers sha256 creds req t).map
      (fun header => (Reference.lower header.1, header.2)) = inOrder sha256 creds req t := by
    have hhost : Reference.lower "Host" = "host" := by decide
    have hhash : Reference.lower "X-Amz-Content-Sha256" = "x-amz-content-sha256" := by decide
    have hdate : Reference.lower "X-Amz-Date" = "x-amz-date" := by decide
    have htoken : Reference.lower "X-Amz-Security-Token" = "x-amz-security-token" := by decide
    unfold Reference.headers inOrder
    rw [formatAmzDate_eq]
    cases creds.sessionToken with
    | none => simp [hhost, hhash, hdate]
    | some token => simp [hhost, hhash, hdate, htoken]
  rw [Reference.sorted, hlower, sort_inOrder, headers_eq]

/-! Only the host's and the token's values may have whitespace within them. -/

theorem spaced_of_forall {value : Text} (h : ∀ c ∈ value, Sse.isWhitespace c = false) :
    Spaced value :=
  Spacing.single_of_forall _ _ fun c hc => h c (Sse.mem_of_mem_trim hc)

theorem spaced_payloadHash (body : List UInt8) : Spaced (payloadHash sha256 body) := by
  have hdigit : ∀ n < 16, Sse.isWhitespace (Nat.digitChar n) = false := by decide
  refine spaced_of_forall fun c hc => ?_
  rw [payloadHash, SessionKey.hex, String.toList_ofList] at hc
  obtain ⟨b, -, hc⟩ := List.mem_flatMap.mp hc
  simp only [ToolUseIds.hexDigits, List.nil_append, List.mem_append, List.mem_singleton] at hc
  rcases hc with rfl | rfl
  · exact hdigit _ (Nat.mod_lt _ (by decide))
  · exact hdigit _ (Nat.mod_lt _ (by decide))

theorem not_isWhitespace_padded {width : ℕ} {n : ℤ} {c : Char}
    (h : c ∈ (padded width n).toList) : Sse.isWhitespace c = false := by
  have hdigit : ∀ c : Char, c.isDigit = true → Sse.isWhitespace c = false := by
    intro c hc
    simp only [Char.isDigit, Bool.and_eq_true, decide_eq_true_eq] at hc
    have hlow : 48 ≤ c.toNat := hc.1
    have hhigh : c.toNat ≤ 57 := hc.2
    exact Sse.isWhitespace_of_visible (by omega)
  have hmember : c = '-' ∨ c = '0' ∨ c ∈ Nat.toDigits 10 n.natAbs := by
    unfold padded at h
    simp only at h
    split at h
    · simp only [String.toList_append, List.mem_append, String.toList_ofList] at h
      rcases h with (h | h) | h
      · exact .inl (by simpa using h)
      · exact .inr (.inl (List.eq_of_mem_replicate h))
      · exact .inr (.inr (by simpa using h))
    · simp only [String.toList_append, List.mem_append, String.toList_ofList] at h
      rcases h with h | h
      · exact .inr (.inl (List.eq_of_mem_replicate h))
      · exact .inr (.inr (by simpa using h))
  rcases hmember with rfl | rfl | h
  · decide
  · decide
  · exact hdigit c (Nat.isDigit_of_mem_toDigits (by decide) (by decide) h)

theorem spaced_formatAmzDate : Spaced (formatAmzDate t) := by
  refine spaced_of_forall fun c hc => ?_
  simp only [formatAmzDate, List.mem_append, List.mem_cons, List.not_mem_nil, or_false] at hc
  rcases hc with (((((hc | hc) | hc) | rfl | hc) | hc) | hc) | rfl
  · exact not_isWhitespace_padded hc
  · exact not_isWhitespace_padded hc
  · exact not_isWhitespace_padded hc
  · decide
  · exact not_isWhitespace_padded hc
  · exact not_isWhitespace_padded hc
  · exact not_isWhitespace_padded hc
  · decide

theorem canonicalHeaders_eq_iff :
    canonicalHeaders (headers sha256 creds req t) =
        Reference.canonicalHeaders (Reference.headers sha256 creds req t) ↔
      Spaced req.host.toList ∧ ∀ token ∈ creds.sessionToken, Spaced token.toList := by
  have hline : ∀ header : String × Text,
      (header.1.toList ++ ':' :: Reference.trimAll header.2 ++ ['\n']).length ≤
        (header.1.toList ++ ':' :: Sse.trim header.2 ++ ['\n']).length := by
    intro header
    have hle := Spacing.length_collapse_le Sse.isWhitespace ' ' (Sse.trim header.2)
    simp only [Reference.trimAll, List.length_append, List.length_cons]
    omega
  have hvalue : ∀ header : String × Text,
      header.1.toList ++ ':' :: Sse.trim header.2 ++ ['\n'] =
          header.1.toList ++ ':' :: Reference.trimAll header.2 ++ ['\n'] ↔ Spaced header.2 := by
    intro header
    rw [Spaced, ← Spacing.collapse_eq_self_iff, List.append_cancel_right_eq,
      List.append_cancel_left_eq, List.cons_inj_right]
    exact eq_comm
  rw [canonicalHeaders, Reference.canonicalHeaders, sorted_reference,
    Spacing.flatMap_eq_iff_of_length_le (fun header _ => hline header), headers_eq]
  simp only [hvalue]
  have hhash := spaced_payloadHash sha256 req.body
  have hdate := spaced_formatAmzDate t
  unfold inOrder
  cases creds.sessionToken with
  | none => simp [hhash, hdate]
  | some token => simp [hhash, hdate]

theorem signedHeaders_eq : signedHeaders (headers sha256 creds req t) =
    Reference.signedHeaders (Reference.headers sha256 creds req t) := by
  rw [signedHeaders, Reference.signedHeaders, sorted_reference]

/-- The two requests differ in the header block alone. -/
theorem canonicalRequest_eq_iff :
    canonicalRequest sha256 creds req t = Reference.canonicalRequest sha256 creds req t ↔
      Spaced req.host.toList ∧ ∀ token ∈ creds.sessionToken, Spaced token.toList := by
  rw [← canonicalHeaders_eq_iff sha256 creds req t, canonicalRequest, Reference.canonicalRequest,
    ← signedHeaders_eq]
  simp [joined]

/-! The day is the first eight characters of an instant whose year has four. -/

theorem length_padded (width : ℕ) (n : ℤ) : (padded width n).toList.length =
    max width ((Nat.toDigits 10 n.natAbs).length + if n < 0 then 1 else 0) := by
  have hrepr : n.natAbs.repr.length = (Nat.toDigits 10 n.natAbs).length := by
    rw [← String.length_toList, Nat.toList_repr]
  unfold padded
  split
  next hneg =>
    simp [hrepr]
    omega
  next hpos =>
    simp [hrepr]
    omega

theorem length_padded_two {n : ℕ} (h : n < 100) : (padded 2 n).toList.length = 2 := by
  have hdigits : (Nat.toDigits 10 n).length ≤ 2 :=
    (Nat.length_toDigits_le_iff (by decide) (by decide)).mpr h
  rw [length_padded, if_neg (by omega), Int.natAbs_natCast]
  omega

theorem length_year_iff : (padded 4 t.year).toList.length = 4 ↔ -999 ≤ t.year := by
  obtain ⟨hlow, hhigh⟩ := t.year_mem
  have hthree : (Nat.toDigits 10 t.year.natAbs).length ≤ 3 ↔ t.year.natAbs < 10 ^ 3 :=
    Nat.length_toDigits_le_iff (by decide) (by decide)
  have hfour : (Nat.toDigits 10 t.year.natAbs).length ≤ 4 ↔ t.year.natAbs < 10 ^ 4 :=
    Nat.length_toDigits_le_iff (by decide) (by decide)
  rw [length_padded]
  split <;> omega

theorem dateStamp_eq_iff : dateStamp t = Reference.date t ↔ -999 ≤ t.year := by
  have hmonth := length_padded_two (n := t.month) (by have := t.month_mem; omega)
  have hday := length_padded_two (n := t.day) (by have := t.day_mem; omega)
  have hlength : (Reference.date t).length = (padded 4 t.year).toList.length + 4 := by
    rw [Reference.date, List.length_append, List.length_append, hmonth, hday]
  have hcut : dateStamp t = (Reference.date t ++ 'T' :: (padded 2 t.hour).toList ++
      (padded 2 t.minute).toList ++ (padded 2 t.second).toList ++ ['Z']).take 8 := by
    rw [dateStamp, formatAmzDate_eq, Reference.instant]
  rw [← length_year_iff]
  constructor
  · intro h
    have height := congrArg List.length h
    have hyear := length_padded 4 t.year
    rw [dateStamp, List.length_take, hlength] at height
    omega
  · intro h
    simp only [hcut, List.append_assoc]
    exact List.take_left' (by omega)

/-- The two scopes differ in their day alone. -/
theorem scope_eq_iff (region service : String) :
    scope region service t = Reference.scope region service t ↔ dateStamp t = Reference.date t := by
  have hcancel : ∀ day day' region service terminator : Text,
      day ++ '/' :: region ++ '/' :: service ++ '/' :: terminator =
        joined ['/'] [day', region, service, terminator] ↔ day = day' := by
    intros
    simp [joined]
  have hterminator : "/aws4_request".toList = '/' :: "aws4_request".toList := by decide
  unfold scope Reference.scope
  rw [hterminator]
  exact hcancel (dateStamp t) (Reference.date t) region.toList service.toList "aws4_request".toList

/-- Over the same request, the two strings differ in their scope alone. -/
theorem stringToSign_eq_iff (region service : String)
    (hrequest : canonicalRequest sha256 creds req t =
      Reference.canonicalRequest sha256 creds req t) :
    stringToSign sha256 creds region service req t =
        Reference.stringToSign sha256 creds region service req t ↔
      scope region service t = Reference.scope region service t := by
  have hcancel : ∀ algorithm instant scope scope' hash : Text,
      (algorithm ++ ['\n']) ++ instant ++ '\n' :: scope ++ '\n' :: hash =
        joined ['\n'] [algorithm, instant, scope', hash] ↔ scope = scope' := by
    intros
    simp [joined]
  have halgorithm : "AWS4-HMAC-SHA256\n".toList = "AWS4-HMAC-SHA256".toList ++ ['\n'] := by decide
  unfold stringToSign Reference.stringToSign
  rw [hrequest, formatAmzDate_eq, halgorithm]
  exact hcancel "AWS4-HMAC-SHA256".toList (Reference.instant t) (scope region service t)
    (Reference.scope region service t) _

end Headers

/-- The signer signs the reference's string just when the host's and the token's values, once
trimmed, have no whitespace but single spaces, and the year has four characters. -/
theorem signsReference_iff (sha256 : List UInt8 → List UInt8) (creds : Credentials)
    (region service : String) (req : SigningRequest) (t : Timestamp) :
    (SignsReference sha256 creds region service req t ∧ EncodesPaths) ↔
      Spaced req.host.toList ∧ (∀ token ∈ creds.sessionToken, Spaced token.toList) ∧
        -999 ≤ t.year := by
  have hstring := stringToSign_eq_iff sha256 creds req t region service
  have hscope := scope_eq_iff t region service
  constructor
  · intro h
    obtain ⟨hsigns, -⟩ := h
    obtain ⟨hhost, htoken⟩ := (canonicalRequest_eq_iff sha256 creds req t).mp hsigns.request
    have hday := hscope.mp ((hstring hsigns.request).mp hsigns.signed)
    exact ⟨hhost, htoken, (dateStamp_eq_iff t).mp hday⟩
  · intro h
    obtain ⟨hhost, htoken, hyear⟩ := h
    have hrequest := (canonicalRequest_eq_iff sha256 creds req t).mpr ⟨hhost, htoken⟩
    have hday := (dateStamp_eq_iff t).mpr hyear
    have hsigned := (hstring hrequest).mpr (hscope.mpr hday)
    refine ⟨⟨?_, ?_, hrequest, hsigned, fun hmac => ?_⟩, encodesPaths⟩
    · rw [headers_eq]
      exact lower_inOrder sha256 creds req t
    · rw [headers_eq]
      exact pairwise_inOrder sha256 creds req t
    · change authorization _ _ _ _ = authorization _ _ _ _
      rw [hscope.mpr hday, hday, hsigned, signedHeaders_eq]

/-- A session token with two spaces together. -/
def spacedToken : Credentials := ⟨"AKIDEXAMPLE", "secret", some "a  b"⟩

def invokeRequest : SigningRequest :=
  ⟨"POST", "/model/m/invoke", "bedrock-runtime.us-east-1.amazonaws.com", []⟩

/-- Noon on the 30th of August 2015. -/
def noon : Timestamp where
  year := 2015
  month := 8
  day := 30
  hour := 12
  minute := 0
  second := 0
  year_mem := by decide
  month_mem := by decide
  day_mem := by decide
  hour_lt := by decide
  minute_lt := by decide
  second_lt := by decide

theorem inner_whitespace_is_signed :
    ¬ ∀ (sha256 : List UInt8 → List UInt8) (creds : Credentials) (region service : String)
      (req : SigningRequest) (t : Timestamp),
      SignsReference sha256 creds region service req t ∧ EncodesPaths := by
  intro h
  have hsigns := (h (fun _ => []) spacedToken "us-east-1" "bedrock" invokeRequest noon).1
  have hspaced := ((canonicalRequest_eq_iff _ _ _ _).mp hsigns.request).2 "a  b" rfl
  have htrim : Sse.trim "a  b".toList = ['a', ' ', ' ', 'b'] := by decide
  have hapart := hspaced.apart
  rw [htrim] at hapart
  have hspace : Sse.isWhitespace ' ' = true := by decide
  simp [hspace] at hapart

end OpenAIGateway.SigV4
