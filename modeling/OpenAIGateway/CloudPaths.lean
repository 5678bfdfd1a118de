import OpenAIGateway.Ascii
import OpenAIGateway.Errors
import OpenAIGateway.UrlPath

/-!
Where the three clouds put a model's name: in one segment of the path, with
every byte escaped but an unreserved one. Azure's deployments API refuses the
names a URL parser would resolve; Vertex has the method after the name.
-/

set_option linter.all false

namespace OpenAIGateway.CloudPaths

open UrlPath (Segment Url Plain IsDots)

/-- Letters, digits, `-`, `.`, `_` and `~`. -/
def isUnreserved (b : UInt8) : Bool :=
  Ascii.isAlphanumeric b || b == 0x2D || b == 0x2E || b == 0x5F || b == 0x7E

def modelSegment (modelId : String) : Segment :=
  Percent.encode (fun b => isUnreserved b || b == 0x3A) (Ascii.bytes modelId)

/-- Vertex's. -/
def segment (value : String) : Segment := Percent.encode isUnreserved (Ascii.bytes value)

/-- Azure's. -/
def pathSegment (name : String) : Segment := Percent.encode isUnreserved (Ascii.bytes name)

def isLocation (value : String) : Bool :=
  Ascii.legal (fun b => (0x61 ≤ b && b ≤ 0x7A) || (0x30 ≤ b && b ≤ 0x39) || b == 0x2D) 63 value

/-- A value of a form, as a query holds it. -/
def formValue (value : String) : List Char :=
  (Ascii.bytes value).flatMap fun b =>
    if b == 0x20 then ['+']
    else Percent.encodeByte
      (fun b => Ascii.isAlphanumeric b || b == 0x2A || b == 0x2D || b == 0x2E || b == 0x5F) b

structure BedrockAdapter where
  region : String
  /-- In place of the region's own host. -/
  endpoint : Option String

def BedrockAdapter.origin (a : BedrockAdapter) : String :=
  a.endpoint.getD ("https://bedrock-runtime." ++ a.region ++ ".amazonaws.com")

/-- The two adapters that post through `signed_post`. -/
inductive Runtime
  | invokeModel
  | converse
  deriving DecidableEq, Repr

def Runtime.action : Runtime → Bool → String
  | .invokeModel, true => "invoke-with-response-stream"
  | .invokeModel, false => "invoke"
  | .converse, true => "converse-stream"
  | .converse, false => "converse"

/-- Where `signed_post` sends a request. -/
def BedrockAdapter.postUrl (parse : List Char → Except String Url) (a : BedrockAdapter)
    (modelId action : String) : Except GatewayError Url :=
  let path := "/model/".toList ++ modelSegment modelId ++ '/' :: action.toList
  match parse (a.origin.toList ++ path) with
  | .ok url => .ok url
  | .error e => .error (.internal ("bedrock url: " ++ e))

inductive Publisher
  | google
  | anthropic
  deriving DecidableEq, Repr

def Publisher.name : Publisher → String
  | .google => "google"
  | .anthropic => "anthropic"

/-- The method, and the query a stream of Google's is asked for with. -/
def Publisher.method : Publisher → Bool → String × Option String
  | .google, false => ("generateContent", none)
  | .google, true => ("streamGenerateContent", some "alt=sse")
  | .anthropic, false => ("rawPredict", none)
  | .anthropic, true => ("streamRawPredict", none)

/-- An endpoint on the gcp platform, which is built with neither a project nor a region that is
not a location. -/
structure VertexAdapter where
  publisher : Publisher
  baseUrl : Option String
  project : String
  region : String
  project_isLocation : isLocation project = true
  region_isLocation : isLocation region = true

def VertexAdapter.host (a : VertexAdapter) : String :=
  match a.baseUrl with
  | some baseUrl => baseUrl
  | none =>
    if a.region = "global" then "https://aiplatform.googleapis.com"
    else "https://" ++ a.region ++ "-aiplatform.googleapis.com"

def VertexAdapter.url (a : VertexAdapter) (model : String) (stream : Bool) : List Char :=
  a.host.toList ++ "/v1/projects/".toList ++ segment a.project ++ "/locations/".toList ++
    segment a.region ++ "/publishers/".toList ++ a.publisher.name.toList ++ "/models/".toList ++
    segment model ++ ':' :: (a.publisher.method stream).1.toList ++
    UrlPath.queryText ((a.publisher.method stream).2.map String.toList)

def VertexAdapter.build (parse : List Char → Except String Url) (a : VertexAdapter)
    (model : String) (stream : Bool) : Except GatewayError Url :=
  match parse (a.url model stream) with
  | .ok url => .ok url
  | .error e => .error (.internal ("building vertex request: " ++ e))

structure AzureOpenAIAdapter where
  endpoint : String
  baseUrl : String
  /-- `none` is the v1 API. -/
  apiVersion : Option String

/-- No deployment is named these. -/
def unnameable : List String := ["", ".", ".."]

def AzureOpenAIAdapter.url (a : AzureOpenAIAdapter) (deployment : String) :
    Except GatewayError (List Char) :=
  if a.apiVersion.isNone then .ok (a.baseUrl.toList ++ "/openai/v1/chat/completions".toList)
  else if deployment ∈ unnameable then
    .error (.config ("endpoint `" ++ a.endpoint ++ "`: a model whose upstream name is \"" ++
      deployment ++ "\" cannot be sent to Azure, whose deployments API puts the name in the URL " ++
      "as one path segment; name the deployment in the catalog row"))
  else
    .ok (a.baseUrl.toList ++ "/openai/deployments/".toList ++ pathSegment deployment ++
      "/chat/completions".toList)

def AzureOpenAIAdapter.build (parse : List Char → Except String Url) (a : AzureOpenAIAdapter)
    (deployment : String) : Except GatewayError Url :=
  match a.url deployment with
  | .error e => .error e
  | .ok url =>
    match parse url with
    | .error e => .error (.internal ("building request: " ++ e))
    | .ok url =>
      match a.apiVersion with
      | none => .ok url
      | some version =>
        .ok { url with query := some ("api-version=".toList ++ formValue version) }

/-- One request's adapter, on a cloud whose path names the model. -/
inductive Cloud
  | bedrock (adapter : BedrockAdapter) (runtime : Runtime) (stream : Bool)
  | vertex (adapter : VertexAdapter) (stream : Bool)
  | azure (adapter : AzureOpenAIAdapter) (version : String)
      (deployments : adapter.apiVersion = some version)

def Cloud.build (parse : List Char → Except String Url) : Cloud → String → Except GatewayError Url
  | .bedrock a runtime stream, model => a.postUrl parse model (runtime.action stream)
  | .vertex a stream, model => a.build parse model stream
  | .azure a _ _, model => a.build parse model

/-- What the path is written after. -/
def Cloud.front : Cloud → String
  | .bedrock a _ _ => a.origin
  | .vertex a _ => a.host
  | .azure a _ _ => a.baseUrl

/-- The path a cloud documents, around the model's name, and the query. -/
structure Documented where
  before : List Segment
  /-- After the name, in its segment. -/
  method : List Char
  after : List Segment
  query : Option (List Char)

def Cloud.documented : Cloud → Documented
  | .bedrock _ runtime stream =>
    ⟨["model".toList], [], [(runtime.action stream).toList], none⟩
  | .vertex a stream =>
    ⟨["v1".toList, "projects".toList, a.project.toList, "locations".toList, a.region.toList,
        "publishers".toList, a.publisher.name.toList, "models".toList],
      ':' :: (a.publisher.method stream).1.toList, [],
      (a.publisher.method stream).2.map String.toList⟩
  | .azure _ version _ =>
    ⟨["openai".toList, "deployments".toList], [], ["chat".toList, "completions".toList],
      some ("api-version=".toList ++ formValue version)⟩

/-- The documented URL, beneath the path the base URL has, with one segment that reads back as
the model's name. -/
def Names (cloud : Cloud) (origin : List Char) (below : List Segment) (model : String)
    (url : Url) : Prop :=
  ∃ name, Percent.decode name = Ascii.bytes model ∧
    url = ⟨origin, below.foldl UrlPath.enter [] ++ cloud.documented.before ++
      [name ++ cloud.documented.method] ++ cloud.documented.after, cloud.documented.query⟩

/-- The request is refused, or its URL is the documented one and no other name's. -/
def OneSegment (parse : List Char → Except String Url) (cloud : Cloud) (origin : List Char)
    (below : List Segment) (model : String) : Prop :=
  (∃ e, cloud.build parse model = .error e) ∨
    ∃ url, cloud.build parse model = .ok url ∧ Names cloud origin below model url ∧
      ∀ other, cloud.build parse other = .ok url → other = model

def Cloud.OnBedrock : Cloud → Prop
  | .bedrock _ _ _ => True
  | _ => False

/-- A name the adapter does not send. -/
def Cloud.Refuses : Cloud → String → Prop
  | .azure _ _ _, model => model ∈ unnameable
  | _, _ => False

/-- A model's name, encoded. -/
def Cloud.name : Cloud → String → Segment
  | .bedrock _ _ _, model => modelSegment model
  | .vertex _ _, model => segment model
  | .azure _ _ _, model => pathSegment model

/-! The encoders keep plain characters only, the dot among them. -/

/-- The bytes one of the encoders keeps. -/
theorem kept {b : UInt8} (h : (isUnreserved b || b == 0x3A) = true) :
    b.toNat < 128 ∧ b.toNat ≠ 37 ∧ UrlPath.plain (Char.ofNat b.toNat) = true := by
  have hall : ∀ n < 256, (isUnreserved (UInt8.ofNat n) || UInt8.ofNat n == 0x3A) = true →
      n < 128 ∧ n ≠ 37 ∧ UrlPath.plain (Char.ofNat n) = true := by decide +kernel
  have hb : UInt8.ofNat b.toNat = b := UInt8.ofNat_toNat
  exact hall b.toNat b.toNat_lt (by rw [hb]; exact h)

theorem kept_of_isUnreserved {b : UInt8} (h : isUnreserved b = true) :
    (isUnreserved b || b == 0x3A) = true := by
  rw [h, Bool.true_or]

theorem safe_isUnreserved : Percent.Safe isUnreserved :=
  fun _ h => ⟨(kept (kept_of_isUnreserved h)).1, (kept (kept_of_isUnreserved h)).2.1⟩

theorem safe_modelSegment : Percent.Safe (fun b => isUnreserved b || b == 0x3A) :=
  fun _ h => ⟨(kept h).1, (kept h).2.1⟩

theorem plain_segment (value : String) : Plain (segment value) :=
  UrlPath.plain_encode (fun _ h => (kept (kept_of_isUnreserved h)).2.2) _

theorem plain_name (cloud : Cloud) (model : String) : Plain (cloud.name model) := by
  cases cloud with
  | bedrock => exact UrlPath.plain_encode (fun _ h => (kept h).2.2) _
  | vertex => exact plain_segment model
  | azure => exact plain_segment model

/-- An encoded name reads back. -/
theorem decode_name (cloud : Cloud) (model : String) :
    Percent.decode (cloud.name model) = Ascii.bytes model := by
  cases cloud with
  | bedrock => exact Percent.decode_encode safe_modelSegment _
  | vertex => exact Percent.decode_encode safe_isUnreserved _
  | azure => exact Percent.decode_encode safe_isUnreserved _

theorem name_injective {cloud : Cloud} {model other : String}
    (h : cloud.name other = cloud.name model) : other = model := by
  have hbytes := congrArg Percent.decode h
  rw [decode_name, decode_name] at hbytes
  exact Ascii.bytes_injective hbytes

/-- A name of one dot or of two. -/
def Dotted (model : String) : Prop := model = "." ∨ model = ".."

theorem bytes_dots_iff (model : String) :
    Ascii.bytes model = [46] ∨ Ascii.bytes model = [46, 46] ↔ Dotted model := by
  have hone : Ascii.bytes "." = [46] := by decide
  have htwo : Ascii.bytes ".." = [46, 46] := by decide
  rw [← htwo, ← hone]
  exact or_congr ⟨Ascii.bytes_injective, congrArg _⟩ ⟨Ascii.bytes_injective, congrArg _⟩

theorem isDots_modelSegment_iff (model : String) : IsDots (modelSegment model) ↔ Dotted model :=
  (UrlPath.isDots_encode_iff safe_modelSegment (by decide) _).trans (bytes_dots_iff model)

theorem isDots_segment_iff (value : String) : IsDots (segment value) ↔ Dotted value :=
  (UrlPath.isDots_encode_iff safe_isUnreserved (by decide) _).trans (bytes_dots_iff value)

/-- Where a name is sent off Bedrock its segment is not dots: Vertex has the method's colon in
it, and Azure refused the names that would be. -/
theorem not_isDots_name {cloud : Cloud} {model : String} (hsent : ¬ cloud.Refuses model)
    (hdots : ¬ (cloud.OnBedrock ∧ Dotted model)) :
    ¬ IsDots (cloud.name model ++ cloud.documented.method) := by
  cases cloud with
  | bedrock a runtime stream =>
    intro h
    have hsegment : IsDots (modelSegment model) := by
      rw [← List.append_nil (modelSegment model)]
      exact h
    exact hdots ⟨trivial, (isDots_modelSegment_iff model).mp hsegment⟩
  | vertex a stream =>
    intro h
    have hcolon := UrlPath.chars_of_isDots h ':'
      (List.mem_append_right _ List.mem_cons_self)
    exact absurd hcolon (by decide)
  | azure a version hversion =>
    intro h
    have hsegment : IsDots (pathSegment model) := by
      rw [← List.append_nil (pathSegment model)]
      exact h
    refine hsent ?_
    rcases (isDots_segment_iff model).mp hsegment with rfl | rfl
    · exact List.mem_cons_of_mem _ List.mem_cons_self
    · exact List.mem_cons_of_mem _ (List.mem_cons_of_mem _ List.mem_cons_self)

/-! The rest of a documented path is plain, and none of it is dots. -/

theorem isUnreserved_of_location {b : UInt8}
    (h : ((0x61 ≤ b && b ≤ 0x7A) || (0x30 ≤ b && b ≤ 0x39) || b == 0x2D) = true) :
    isUnreserved b = true := by
  simp only [Bool.or_eq_true] at h
  simp only [isUnreserved, Ascii.isAlphanumeric, Bool.or_eq_true]
  tauto

/-- A location is written as it is, and is not dots. -/
theorem segment_of_isLocation {value : String} (h : isLocation value = true) :
    segment value = value.toList ∧ ¬ IsDots value.toList := by
  have hlt : ∀ b : UInt8,
      ((0x61 ≤ b && b ≤ 0x7A) || (0x30 ≤ b && b ≤ 0x39) || b == 0x2D) = true → b.toNat < 128 :=
    fun b hb => (kept (kept_of_isUnreserved (isUnreserved_of_location hb))).1
  have hmatches := (Ascii.legal_iff_matches hlt 63 value).mp h
  have hsegment : segment value = value.toList := by
    refine Ascii.escape_eq_self fun c hc => ?_
    obtain ⟨hascii, hbyte⟩ := hmatches.chars c hc
    exact ⟨hascii, isUnreserved_of_location hbyte⟩
  refine ⟨hsegment, fun hdots => ?_⟩
  rw [← hsegment, isDots_segment_iff] at hdots
  rcases hdots with rfl | rfl <;> exact absurd h (by decide)

/-- The fixed words of the three paths. -/
def words : List String :=
  ["model", "invoke", "invoke-with-response-stream", "converse", "converse-stream", "v1",
    "projects", "locations", "publishers", "google", "anthropic", "models", "openai",
    "deployments", "chat", "completions"]

theorem words_plain : ∀ s ∈ words, Plain s.toList ∧ ¬ IsDots s.toList := by
  have hall : ∀ s ∈ words, s.toList.all UrlPath.plain = true ∧ ¬ IsDots s.toList := by decide
  exact fun s hs => ⟨List.all_eq_true.mp (hall s hs).1, (hall s hs).2⟩

theorem documented_plain (cloud : Cloud) :
    ∀ s ∈ cloud.documented.before ++ cloud.documented.after, Plain s ∧ ¬ IsDots s := by
  have hlocation : ∀ value, isLocation value = true →
      Plain value.toList ∧ ¬ IsDots value.toList := by
    intro value h
    obtain ⟨hsegment, hdots⟩ := segment_of_isLocation h
    exact ⟨hsegment ▸ plain_segment value, hdots⟩
  intro s hs
  cases cloud with
  | bedrock a runtime stream =>
    have haction : runtime.action stream ∈ words := by
      cases runtime <;> cases stream <;> decide
    simp only [Cloud.documented, List.mem_append, List.mem_cons, List.not_mem_nil, or_false] at hs
    rcases hs with rfl | rfl
    · exact words_plain "model" (by decide)
    · exact words_plain _ haction
  | vertex a stream =>
    have hpublisher : a.publisher.name ∈ words := by
      cases a.publisher <;> decide
    simp only [Cloud.documented, List.append_nil, List.mem_cons, List.not_mem_nil, or_false] at hs
    rcases hs with rfl | rfl | rfl | rfl | rfl | rfl | rfl | rfl
    · exact words_plain "v1" (by decide)
    · exact words_plain "projects" (by decide)
    · exact hlocation _ a.project_isLocation
    · exact words_plain "locations" (by decide)
    · exact hlocation _ a.region_isLocation
    · exact words_plain "publishers" (by decide)
    · exact words_plain _ hpublisher
    · exact words_plain "models" (by decide)
  | azure a version hversion =>
    simp only [Cloud.documented, List.mem_append, List.mem_cons, List.not_mem_nil, or_false] at hs
    rcases hs with (rfl | rfl) | rfl | rfl
    · exact words_plain "openai" (by decide)
    · exact words_plain "deployments" (by decide)
    · exact words_plain "chat" (by decide)
    · exact words_plain "completions" (by decide)

variable {parse : List Char → Except String Url} {cloud : Cloud} {origin : List Char}
  {below : List Segment}

/-- The path a request is built with, before the parser reads it. -/
def Cloud.written (cloud : Cloud) (model : String) : List Segment :=
  cloud.documented.before ++ [cloud.name model ++ cloud.documented.method] ++
    cloud.documented.after

theorem plain_written (cloud : Cloud) (model : String) : ∀ s ∈ cloud.written model, Plain s := by
  have hmethod : Plain cloud.documented.method := by
    cases cloud with
    | bedrock => exact fun c hc => absurd hc List.not_mem_nil
    | vertex a stream =>
      refine List.all_eq_true.mp ?_
      change (':' :: (a.publisher.method stream).1.toList).all UrlPath.plain = true
      cases a.publisher <;> cases stream <;> decide
    | azure => exact fun c hc => absurd hc List.not_mem_nil
  intro s hs
  simp only [Cloud.written, List.mem_append, List.mem_singleton] at hs
  rcases hs with (hs | rfl) | hs
  · exact (documented_plain cloud s (List.mem_append_left _ hs)).1
  · intro c hc
    exact (List.mem_append.mp hc).elim (plain_name cloud model c) (hmethod c)
  · exact (documented_plain cloud s (List.mem_append_right _ hs)).1

/-- A name that is sent is written as one segment of the documented path. -/
theorem build_eq (hreads : UrlPath.Reads parse cloud.front.toList origin below) {model : String}
    (hsent : ¬ cloud.Refuses model) :
    cloud.build parse model = .ok
      ⟨origin, UrlPath.resolve (below ++ cloud.written model), cloud.documented.query⟩ := by
  have hne : cloud.written model ≠ [] := by
    simp [Cloud.written]
  cases cloud with
  | bedrock a runtime stream =>
    have hread := hreads _ none hne (plain_written _ model) (fun q hq => by cases hq)
    have htext : a.origin.toList ++
        ("/model/".toList ++ modelSegment model ++ '/' :: (runtime.action stream).toList) =
        a.origin.toList ++ UrlPath.text ((Cloud.bedrock a runtime stream).written model) ++
          UrlPath.queryText none := by
      simp [UrlPath.text, UrlPath.queryText, Cloud.written, Cloud.documented, Cloud.name]
    simp only [Cloud.build, BedrockAdapter.postUrl, htext]
    rw [show a.origin = (Cloud.bedrock a runtime stream).front from rfl, hread]
    rfl
  | vertex a stream =>
    have hquery : ∀ q ∈ (a.publisher.method stream).2.map String.toList, Plain q := by
      intro q hq
      have hword : q = "alt=sse".toList := by
        cases hpublisher : a.publisher <;> cases stream <;>
          simp only [hpublisher, Publisher.method, Option.map_none, Option.map_some,
            Option.mem_def, reduceCtorEq, Option.some.injEq] at hq
        exact hq.symm
      rw [hword]
      exact List.all_eq_true.mp (by decide : "alt=sse".toList.all UrlPath.plain = true)
    have hread := hreads _ _ hne (plain_written _ model) hquery
    have htext : a.url model stream =
        a.host.toList ++ UrlPath.text ((Cloud.vertex a stream).written model) ++
          UrlPath.queryText ((a.publisher.method stream).2.map String.toList) := by
      rw [VertexAdapter.url, (segment_of_isLocation a.project_isLocation).1,
        (segment_of_isLocation a.region_isLocation).1]
      simp [UrlPath.text, Cloud.written, Cloud.documented, Cloud.name]
    simp only [Cloud.build, VertexAdapter.build, htext]
    rw [show a.host = (Cloud.vertex a stream).front from rfl, hread]
    rfl
  | azure a version hversion =>
    have hread := hreads _ none hne (plain_written _ model) (fun q hq => by cases hq)
    have hnamed : model ∉ unnameable := hsent
    have hurl : a.url model = .ok (a.baseUrl.toList ++
        UrlPath.text ((Cloud.azure a version hversion).written model) ++
          UrlPath.queryText none) := by
      rw [AzureOpenAIAdapter.url, if_neg (by simp [hversion]), if_neg hnamed]
      simp [UrlPath.text, UrlPath.queryText, Cloud.written, Cloud.documented, Cloud.name]
    simp only [Cloud.build, AzureOpenAIAdapter.build, hurl, hversion]
    rw [show a.baseUrl = (Cloud.azure a version hversion).front from rfl, hread]
    rfl

/-- A name that is refused is not sent anywhere. -/
theorem build_refused (parse : List Char → Except String Url) {model : String}
    (h : cloud.Refuses model) :
    ∃ e, cloud.build parse model = .error e := by
  cases cloud with
  | bedrock => exact h.elim
  | vertex => exact h.elim
  | azure a version hversion =>
    have hunnameable : model ∈ unnameable := h
    have hurl : ∃ e, a.url model = .error e := by
      rw [AzureOpenAIAdapter.url, if_neg (by simp [hversion]), if_pos hunnameable]
      exact ⟨_, rfl⟩
    obtain ⟨e, he⟩ := hurl
    refine ⟨e, ?_⟩
    simp only [Cloud.build, AzureOpenAIAdapter.build, he]

/-- A segment that is not dots is where it was written. -/
theorem resolve_written {model : String}
    (h : ¬ IsDots (cloud.name model ++ cloud.documented.method)) :
    UrlPath.resolve (below ++ cloud.written model) =
      below.foldl UrlPath.enter [] ++ cloud.written model := by
  apply UrlPath.resolve_append
  · simp [Cloud.written]
  · intro s hs
    simp only [Cloud.written, List.mem_append, List.mem_singleton] at hs
    rcases hs with (hs | rfl) | hs
    · exact (documented_plain cloud s (List.mem_append_left _ hs)).2
    · exact h
    · exact (documented_plain cloud s (List.mem_append_right _ hs)).2

/-- Dots on Bedrock shorten the path. -/
theorem length_resolve_dotted (below : List Segment) (a : BedrockAdapter) (runtime : Runtime)
    (stream : Bool) {model : String} (h : Dotted model) :
    (UrlPath.resolve (below ++ (Cloud.bedrock a runtime stream).written model)).length <
      (below.foldl UrlPath.enter []).length + 3 := by
  have hdots : IsDots (modelSegment model ++ []) := by
    rw [List.append_nil]
    exact (isDots_modelSegment_iff model).mpr h
  have hfixed := documented_plain (.bedrock a runtime stream)
  exact UrlPath.length_resolve_of_isDots (hfixed _ List.mem_cons_self).2 hdots
    (hfixed _ (List.mem_append_right _ List.mem_cons_self)).2

/-- A name that keeps its segment is the only one with its URL. -/
theorem eq_of_build (hreads : UrlPath.Reads parse cloud.front.toList origin below)
    {model other : String} (hsent : ¬ cloud.Refuses model)
    (hdots : ¬ (cloud.OnBedrock ∧ Dotted model))
    (h : cloud.build parse other = cloud.build parse model) : other = model := by
  rw [build_eq hreads hsent] at h
  have hother : ¬ cloud.Refuses other := by
    intro hrefused
    obtain ⟨e, he⟩ := build_refused parse hrefused
    rw [he] at h
    cases h
  rw [build_eq hreads hother, Except.ok.injEq, Url.mk.injEq,
    resolve_written (not_isDots_name hsent hdots)] at h
  obtain ⟨-, hsegments, -⟩ := h
  by_cases hdotted : cloud.OnBedrock ∧ Dotted other
  · cases cloud with
    | bedrock a runtime stream =>
      have hlt := length_resolve_dotted below a runtime stream hdotted.2
      rw [hsegments, List.length_append] at hlt
      have hlen : ((Cloud.bedrock a runtime stream).written model).length = 3 := rfl
      omega
    | vertex => exact hdotted.1.elim
    | azure => exact hdotted.1.elim
  · rw [resolve_written (not_isDots_name hother hdotted)] at hsegments
    have hwritten := List.append_cancel_left hsegments
    have hsegment := List.append_cancel_left (List.append_cancel_right hwritten)
    exact name_injective (List.append_cancel_right (List.singleton_inj.mp hsegment))

/-- Every name is one segment of the documented path, or refused, but `.` and `..` on
Bedrock. -/
theorem oneSegment_iff (hreads : UrlPath.Reads parse cloud.front.toList origin below)
    (model : String) :
    OneSegment parse cloud origin below model ↔
      ¬ (cloud.OnBedrock ∧ (model = "." ∨ model = "..")) := by
  constructor
  · intro h hdots
    cases cloud with
    | bedrock a runtime stream =>
      have hsent : ¬ (Cloud.bedrock a runtime stream).Refuses model := id
      have hbuild := build_eq hreads hsent
      rcases h with ⟨e, he⟩ | ⟨url, hurl, ⟨name, -, heq⟩, -⟩
      · rw [hbuild] at he
        cases he
      · rw [hbuild, Except.ok.injEq] at hurl
        have hsegments := congrArg (fun url => url.segments.length) (hurl.trans heq)
        have hlt := length_resolve_dotted below a runtime stream hdots.2
        simp only [Cloud.documented, List.length_append, List.length_singleton] at hsegments
        omega
    | vertex => exact hdots.1
    | azure => exact hdots.1
  · intro hdots
    by_cases hrefused : cloud.Refuses model
    · exact .inl (build_refused parse hrefused)
    · refine .inr ⟨_, build_eq hreads hrefused, ⟨cloud.name model, decode_name cloud model, ?_⟩, ?_⟩
      · rw [resolve_written (not_isDots_name hrefused hdots), Cloud.written]
        simp only [List.append_assoc]
      · intro other hother
        exact eq_of_build hreads hrefused hdots (hother.trans (build_eq hreads hrefused).symm)

/-- Bedrock in its own region, at `InvokeModel`. -/
def regional : Cloud := .bedrock ⟨"us-east-1", none⟩ .invokeModel false

theorem reads_regional : UrlPath.Reads UrlPath.read regional.front.toList
    "https://bedrock-runtime.us-east-1.amazonaws.com".toList [] := by
  have hall : "bedrock-runtime.us-east-1.amazonaws.com".toList.all UrlPath.plain = true := by
    decide
  have hplain : Plain "bedrock-runtime.us-east-1.amazonaws.com".toList := List.all_eq_true.mp hall
  have hfront : "https://bedrock-runtime.us-east-1.amazonaws.com".toList =
      "https://".toList ++ "bedrock-runtime.us-east-1.amazonaws.com".toList := by decide
  have horigin : regional.front = "https://bedrock-runtime.us-east-1.amazonaws.com" := by decide
  have hread := UrlPath.reads_read _ [] hplain (fun s hs => absurd hs List.not_mem_nil)
  rw [horigin, hfront]
  exact hread

theorem oneSegment_arn : OneSegment UrlPath.read regional
    "https://bedrock-runtime.us-east-1.amazonaws.com".toList []
    "arn:aws:bedrock:us-east-1:1:inference-profile/a" :=
  (oneSegment_iff reads_regional _).mpr fun h => absurd h.2 (by decide)

/-- A model named `..` is posted to `/invoke`. -/
theorem two_dots_leave_the_model :
    regional.build UrlPath.read ".." = .ok
        ⟨"https://bedrock-runtime.us-east-1.amazonaws.com".toList, ["invoke".toList], none⟩ ∧
      ¬ ∀ (parse : List Char → Except String Url) (cloud : Cloud) (origin : List Char)
        (below : List Segment), UrlPath.Reads parse cloud.front.toList origin below →
        ∀ model, OneSegment parse cloud origin below model := by
  have hbuild : regional.build UrlPath.read ".." = .ok
      ⟨"https://bedrock-runtime.us-east-1.amazonaws.com".toList, ["invoke".toList], none⟩ := by
    rfl
  refine ⟨hbuild, fun h => ?_⟩
  rcases h _ _ _ _ reads_regional ".." with ⟨e, he⟩ | ⟨url, hurl, ⟨name, -, heq⟩, -⟩
  · rw [hbuild] at he
    cases he
  · rw [hbuild, Except.ok.injEq] at hurl
    have hsegments := congrArg (fun url => url.segments.length) (hurl.trans heq)
    simp [regional, Cloud.documented] at hsegments

end OpenAIGateway.CloudPaths
