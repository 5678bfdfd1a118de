import OpenAIGateway.Passthrough

/-!
Requests in the Gemini `generateContent` dialect. Most settings sit in
`generationConfig`, a named tool is a list of one allowed name, and a result is
addressed by its function's name. Every field is read in either of its two
spellings. What the hub has no name for rides along and is merged back into a
body of this dialect.
-/

set_option linter.all false

namespace OpenAIGateway.GeminiRequest

/-- A field, in either of the two spellings this dialect is sent in. -/
def field (v : Json) (camel : String) : Json :=
  ((v.get camel).or (v.get (snakeOf camel))).getD .null

section Render

/-- The function a canonical tool id names. -/
def functionName (toolUseId : String) : String :=
  String.ofList (toolUseId.toList.takeWhile (fun c => c ≠ '#'))

/-- What each call was called, by the id its result will quote; the last call of an id counts. -/
def toolNames (messages : List Message) : List (String × String) :=
  ((messages.flatMap Message.content).filterMap (fun b =>
    match b with
    | .toolUse id name _ => some (id, name)
    | _ => none)).reverse

def renderPart (names : List (String × String)) : ContentBlock → Option Json
  | .text text _ => some (.obj [("text", .str text)])
  | .image mediaType data =>
    some (.obj [("inlineData", .obj [("mimeType", .str mediaType), ("data", .str data)])])
  | .toolUse _ name input =>
    some (.obj [("functionCall", .obj [("name", .str name), ("args", input)])])
  | .toolResult toolUseId content _ =>
    some (.obj [("functionResponse",
      .obj [("name", .str ((names.lookup toolUseId).getD (functionName toolUseId))),
        ("response", .obj [("result", .str content.asText)])])])
  | .thinking _ _ => none

def renderMessage (names : List (String × String)) (m : Message) : Json :=
  .obj [("role", .str (if m.role = .assistant then "model" else "user")),
    ("parts", .arr (m.content.filterMap (renderPart names)))]

def renderTool (t : Tool) : Json :=
  .obj [("name", .str t.name), ("description", .str t.description), ("parameters", t.inputSchema)]

def renderToolChoice (choice : ToolChoice) : Json :=
  match choice with
  | .auto => .obj [("mode", .str "AUTO")]
  | .required => .obj [("mode", .str "ANY")]
  | .none => .obj [("mode", .str "NONE")]
  | .tool name => .obj [("mode", .str "ANY"), ("allowedFunctionNames", .arr [.str name])]

/-- A MIME type rather than a format object. -/
def responseMimeType : ResponseFormat → Json
  | .text => .str "text/plain"
  | .jsonObject | .jsonSchema _ _ _ => .str "application/json"

/-- The schema beside the type; its label and `strict` flag have no field here. -/
def responseSchema : ResponseFormat → Option Json
  | .jsonSchema _ schema _ => some schema
  | _ => none

def thinkingConfig (req : HubRequest) : Option Json :=
  (req.thinkingBudget.or (req.thinkingEffort.map Effort.asBudget)).map (fun budget =>
    .obj [("thinkingBudget", .u32 budget)])

def renderConfig (req : HubRequest) : List (String × Json) :=
  let cfg := [("maxOutputTokens", .u32 req.maxTokens)]
  let cfg := Json.setSome "temperature" (req.temperature.map Json.float32) cfg
  let cfg := Json.setSome "thinkingConfig" (thinkingConfig req) cfg
  let cfg := Json.setSome "responseMimeType" (req.responseFormat.map responseMimeType) cfg
  let cfg := Json.setSome "responseSchema" (req.responseFormat.bind responseSchema) cfg
  Json.setSome "stopSequences" (Json.nonEmpty req.stop Json.str) cfg

def renderSystem (system : List ContentBlock) : Option Json :=
  if system.isEmpty then none
  else some (.obj [("parts", .arr [.obj [("text",
    .str (String.intercalate "\n\n" (blockTexts system)))]])])

/-- One entry holds every declaration. -/
def renderTools (tools : List Tool) : Option Json :=
  (Json.nonEmpty tools renderTool).map (fun declarations =>
    .arr [.obj [("functionDeclarations", declarations)]])

def renderBody (req : HubRequest) : List (String × Json) :=
  let contents := req.messages.map (renderMessage (toolNames req.messages))
  let body := [("contents", .arr contents), ("generationConfig", .obj (renderConfig req))]
  let body := Json.setSome "systemInstruction" (renderSystem req.system) body
  let body := Json.setSome "tools" (renderTools req.tools) body
  Json.setSome "toolConfig" (req.toolChoice.map (fun choice =>
    .obj [("functionCallingConfig", renderToolChoice choice)])) body

/-- The residue is merged last, when every field above has its key. -/
def mergeResidue (residue : Option Passthrough) (body : Json) : Json :=
  match residue with
  | some extra => extra.mergeInto .geminiGenerateContent body
  | none => body

/-- Canonical to Gemini wire JSON. The model is in the URL. -/
def renderRequest (req : HubRequest) : Rendered :=
  if req.previousResponseId.isSome then
    .error ⟨"previous_response_id", .geminiGenerateContent⟩
  else .ok (mergeResidue req.passthrough (.obj (renderBody req)))

end Render

/-- Everything the parser takes out of the body before what is left is the residue. -/
def subtracted : List (List String) :=
  [["contents"], ["systemInstruction"], ["tools"], ["toolConfig"],
    ["generationConfig", "maxOutputTokens"], ["generationConfig", "temperature"],
    ["generationConfig", "thinkingConfig", "thinkingBudget"],
    ["generationConfig", "responseMimeType"], ["generationConfig", "responseSchema"],
    ["generationConfig", "stopSequences"],
    -- A `model` in the body could contradict the one the router chose.
    ["model"],
    -- More than one candidate changes the shape of the response.
    ["generationConfig", "candidateCount"]]

/-- The words for a level that this dialect has. -/
def thinkingLevels : List String := ["minimal", "low", "medium", "high"]

def thinkingLevel : List String := ["generationConfig", "thinkingConfig", "thinkingLevel"]

section Parse

variable (toStr : Json → String)

def parseToolChoice (cfg : Json) : Option ToolChoice := do
  let mode ← (field cfg "mode").asStr
  let allowed := match (field cfg "allowedFunctionNames").asArray with
    | some [name] => name.asStr
    | _ => none
  match allowed with
  | some name => if mode ≠ "NONE" then return .tool name else return .none
  | none =>
    match mode with
    | "AUTO" => return .auto
    | "ANY" => return .required
    | "NONE" => return .none
    | _ => none

def parseResponseFormat (cfg : Json) : Option ResponseFormat :=
  match field cfg "responseSchema" with
  | .null =>
    if (field cfg "responseMimeType").asStr = some "application/json" then some .jsonObject
    else if (field cfg "responseMimeType").isString then some .text
    else none
  | schema => some (.jsonSchema "response" schema true)

def thinkingBudget (cfg : Json) : Option UInt32 :=
  (field (field cfg "thinkingConfig") "thinkingBudget").asU64.bind u32TryFrom

/-- A level in a word this dialect has none for. -/
def foreignLevel (cfg : Json) : Option Effort :=
  (((field (field cfg "thinkingConfig") "thinkingLevel").asStr.map
    (fun level => String.ofList (level.toList.map Char.toLower))).filter
      (fun level => level ∉ thinkingLevels)).bind Effort.parse

def parseResult (resp : Json) : String :=
  match field (field resp "response") "result" with
  | .null => toStr (field resp "response")
  | .str s => s
  | other => toStr other

def parsePart (p : Json) : Option ContentBlock :=
  match (field p "text").asStr with
  | some text => some (.text text none)
  | none =>
    if ¬ (field p "functionCall").isNull then
      let name := (field (field p "functionCall") "name").asStr.getD ""
      some (.toolUse name name (field (field p "functionCall") "args"))
    else if ¬ (field p "functionResponse").isNull then
      some (.toolResult ((field (field p "functionResponse") "name").asStr.getD "")
        (.text (parseResult toStr (field p "functionResponse"))) false)
    else if ¬ (field p "inlineData").isNull then do
      let mediaType ← (field (field p "inlineData") "mimeType").asStr
      let data ← (field (field p "inlineData") "data").asStr
      return .image mediaType data
    else none

def parseContent (v : Json) : Option Message := do
  let parts ← (field v "parts").asArray
  let content := parts.filterMap (parsePart toStr)
  if content.isEmpty then none
  else return ⟨if (field v "role").asStr = some "model" then .assistant else .user, content⟩

def parseTool (d : Json) : Option Tool := do
  let name ← (field d "name").asStr
  return {
    name := name, description := (field d "description").asStr.getD "",
    inputSchema := field d "parameters" }

def parseSystem (v : Json) : List ContentBlock :=
  (((field v "parts").asArray.getD []).filterMap (fun p => (field p "text").asStr)).map
    (fun text => .text text none)

/-- Gemini wire JSON to canonical. -/
def parseRequest (body : Json) : HubRequest :=
  let cfg := field body "generationConfig"
  let level := foreignLevel cfg
  { system := parseSystem (field body "systemInstruction")
    messages := ((field body "contents").asArray.getD []).filterMap (parseContent toStr)
    tools := (((field body "tools").asArray.getD []).filterMap (fun entry =>
      (field entry "functionDeclarations").asArray)).flatten.filterMap parseTool
    maxTokens := ((field cfg "maxOutputTokens").asU64.bind u32TryFrom).getD 4096
    temperature := (field cfg "temperature").asF64.map Float.toFloat32
    thinkingBudget := thinkingBudget cfg
    thinkingEffort := ((thinkingBudget cfg).map Effort.fromBudget).or level
    toolChoice := parseToolChoice (field (field body "toolConfig") "functionCallingConfig")
    responseFormat := parseResponseFormat cfg
    stop := ((field cfg "stopSequences").asArray.getD []).filterMap Json.asStr
    passthrough := Passthrough.capture .geminiGenerateContent body
      (if level.isSome then subtracted ++ [thinkingLevel] else subtracted) }

end Parse

section Merge

theorem field_obj (members : List (String × Json)) (camel : String) :
    field (.obj members) camel =
      ((members.lookup camel).or (members.lookup (snakeOf camel))).getD .null := rfl

/-- A field that is there in its own spelling only. -/
theorem field_of_lookup {members : List (String × Json)} {camel : String} {v : Option Json}
    (hcamel : members.lookup camel = v) (hsnake : members.lookup (snakeOf camel) = none) :
    field (.obj members) camel = v.getD .null := by
  rw [field_obj, hcamel, hsnake, Option.or_none]

/-- A field with one spelling. -/
theorem field_of_lookup_self {members : List (String × Json)} {camel : String} {v : Option Json}
    (hname : snakeOf camel = camel) (hlookup : members.lookup camel = v) :
    field (.obj members) camel = v.getD .null := by
  rw [field_obj, hname, hlookup, Option.or_self]

/-- The residue leaves alone a field it has not. -/
theorem field_mergeFrom {name : String} {extra : Json} (h : Json.Absent [name] extra)
    (target : List (String × Json)) :
    field (extra.mergeFrom (.obj target)) name = field (.obj target) name := by
  cases extra with
  | obj members =>
    have hcamel : ∀ m ∈ members, m.1 ≠ name := fun m hm heq => h m hm (Or.inl heq)
    have hsnake : ∀ m ∈ members, m.1 ≠ snakeOf name := fun m hm heq => h m hm (Or.inr heq)
    change field (.obj (Json.mergeMembers members target)) name = _
    rw [field_obj, field_obj, Json.lookup_mergeMembers_of_absent hcamel,
      Json.lookup_mergeMembers_of_absent hsnake]
  | _ => rfl

/-- The fields of one of the target's objects that the residue has not are left alone. -/
theorem field_mergeFrom_below {name : String} {target cfg : List (String × Json)} (extra : Json)
    (hcfg : target.lookup name = some (.obj cfg)) :
    ∃ cfg', field (extra.mergeFrom (.obj target)) name = .obj cfg' ∧
      ∀ camel, Json.Absent [name, camel] extra →
        field (.obj cfg') camel = field (.obj cfg) camel := by
  cases extra with
  | obj members =>
    have hkeep : ∀ v t, (name, v) ∈ members →
        (∃ cfg', t = .obj cfg' ∧ ∀ camel, Json.Absent [name, camel] (.obj members) →
          field (.obj cfg') camel = field (.obj cfg) camel) →
        ∃ cfg', v.mergeFrom t = .obj cfg' ∧ ∀ camel, Json.Absent [name, camel] (.obj members) →
          field (.obj cfg') camel = field (.obj cfg) camel := by
      rintro v t hv ⟨cfg', rfl, hsame⟩
      cases v with
      | obj extra =>
        refine ⟨_, rfl, ?_⟩
        intro camel habsent
        have hbelow : Json.Absent [camel] (.obj extra) := habsent (name, .obj extra) hv (Or.inl rfl)
        exact (field_mergeFrom hbelow cfg').trans (hsame camel habsent)
      | _ => exact ⟨cfg', rfl, hsame⟩
    obtain ⟨t', ht', cfg', rfl, hsame⟩ :=
      Json.lookup_mergeMembers_kept hcfg ⟨cfg, rfl, fun _ _ => rfl⟩ hkeep
    refine ⟨cfg', ?_, hsame⟩
    change field (.obj (Json.mergeMembers members target)) name = _
    rw [field_obj, ht', Option.some_or, Option.getD_some]
  | _ =>
    refine ⟨cfg, ?_, fun _ _ => rfl⟩
    change field (.obj target) name = _
    rw [field_obj, hcfg, Option.some_or, Option.getD_some]

/-- The residue has none of these paths. -/
def Residue (paths : List (List String)) (residue : Option Passthrough) : Prop :=
  ∀ extra, residue = some extra → extra.dialect = .geminiGenerateContent →
    ∀ path ∈ paths, Json.Absent path extra.body

end Merge

section Settings

variable {req : HubRequest}

theorem lookup_renderBody (req : HubRequest) {key : String}
    (hkey : key ∉ ["contents", "generationConfig", "systemInstruction", "tools", "toolConfig"]) :
    (renderBody req).lookup key = none := by
  simp only [List.mem_cons, List.not_mem_nil, or_false, not_or] at hkey
  obtain ⟨hcontents, hconfig, hsystem, htools, htoolConfig⟩ := hkey
  unfold renderBody
  rw [Json.lookup_setSome_ne htoolConfig, Json.lookup_setSome_ne htools,
    Json.lookup_setSome_ne hsystem, Json.lookup_cons_ne hcontents, Json.lookup_cons_ne hconfig,
    List.lookup_nil]

theorem lookup_renderConfig (req : HubRequest) {key : String}
    (hkey : key ∉ ["maxOutputTokens", "temperature", "thinkingConfig", "responseMimeType",
      "responseSchema", "stopSequences"]) : (renderConfig req).lookup key = none := by
  simp only [List.mem_cons, List.not_mem_nil, or_false, not_or] at hkey
  obtain ⟨htokens, htemperature, hthinking, hmime, hschema, hstop⟩ := hkey
  unfold renderConfig
  rw [Json.lookup_setSome_ne hstop, Json.lookup_setSome_ne hschema, Json.lookup_setSome_ne hmime,
    Json.lookup_setSome_ne hthinking, Json.lookup_setSome_ne htemperature,
    Json.lookup_cons_ne htokens, List.lookup_nil]

theorem lookup_generationConfig (req : HubRequest) :
    (renderBody req).lookup "generationConfig" = some (.obj (renderConfig req)) := by
  simp (disch := decide) only [renderBody, Json.lookup_setSome_ne]
  rfl

theorem field_toolConfig (req : HubRequest) :
    field (.obj (renderBody req)) "toolConfig" = (req.toolChoice.map (fun choice =>
      .obj [("functionCallingConfig", renderToolChoice choice)])).getD .null := by
  refine field_of_lookup ?_ (lookup_renderBody req (by decide))
  refine Json.lookup_setSome_self ?_ _
  simp (disch := decide) only [Json.lookup_setSome_ne]
  rfl

theorem field_maxOutputTokens (req : HubRequest) :
    field (.obj (renderConfig req)) "maxOutputTokens" = .u32 req.maxTokens := by
  have hcamel : (renderConfig req).lookup "maxOutputTokens" = some (.u32 req.maxTokens) := by
    simp (disch := decide) only [renderConfig, Json.lookup_setSome_ne]
    rfl
  exact field_of_lookup hcamel (lookup_renderConfig req (by decide))

theorem field_responseMimeType (req : HubRequest) :
    field (.obj (renderConfig req)) "responseMimeType" =
      (req.responseFormat.map responseMimeType).getD .null := by
  refine field_of_lookup ?_ (lookup_renderConfig req (by decide))
  simp (disch := decide) only [renderConfig, Json.lookup_setSome_ne]
  refine Json.lookup_setSome_self ?_ _
  simp (disch := decide) only [Json.lookup_setSome_ne]
  rfl

theorem field_responseSchema (req : HubRequest) :
    field (.obj (renderConfig req)) "responseSchema" =
      (req.responseFormat.bind responseSchema).getD .null := by
  refine field_of_lookup ?_ (lookup_renderConfig req (by decide))
  simp (disch := decide) only [renderConfig, Json.lookup_setSome_ne]
  refine Json.lookup_setSome_self ?_ _
  simp (disch := decide) only [Json.lookup_setSome_ne]
  rfl

theorem field_stopSequences (req : HubRequest) :
    field (.obj (renderConfig req)) "stopSequences" =
      (Json.nonEmpty req.stop Json.str).getD .null := by
  refine field_of_lookup ?_ (lookup_renderConfig req (by decide))
  refine Json.lookup_setSome_self ?_ _
  simp (disch := decide) only [Json.lookup_setSome_ne]
  rfl

theorem parseToolChoice_renderToolChoice (choice : Option ToolChoice) :
    parseToolChoice (field ((choice.map (fun choice =>
      .obj [("functionCallingConfig", renderToolChoice choice)])).getD .null)
        "functionCallingConfig") = choice := by
  cases choice with
  | none => rfl
  | some choice => cases choice <;> rfl

/-- A schema comes back under the dialect's own label and always strict; without a schema
what is left of the format is the JSON type. -/
def normalise : ResponseFormat → ResponseFormat
  | .jsonSchema _ schema _ =>
    if schema.isNull then .jsonObject else .jsonSchema "response" schema true
  | format => format

theorem parseResponseFormat_eq {cfg : Json} {format : Option ResponseFormat}
    (hmime : field cfg "responseMimeType" = (format.map responseMimeType).getD .null)
    (hschema : field cfg "responseSchema" = (format.bind responseSchema).getD .null) :
    parseResponseFormat cfg = format.map normalise := by
  unfold parseResponseFormat
  rw [hmime, hschema]
  cases format with
  | none => rfl
  | some format =>
    cases format with
    | text => rfl
    | jsonObject => rfl
    | jsonSchema name schema strict => cases schema <;> rfl

/-- The residue of a body is without everything the parser subtracts. -/
theorem residue_parseRequest (toStr : Json → String) (body : Json) :
    Residue subtracted (parseRequest toStr body).passthrough := by
  intro extra hcapture _ path hpath
  have hne : path ≠ [] := by
    rintro rfl
    exact absurd hpath (by decide)
  change Passthrough.capture .geminiGenerateContent body _ = some extra at hcapture
  split at hcapture
  · exact Passthrough.absent_capture hcapture (List.mem_append_left _ hpath) hne
  · exact Passthrough.absent_capture hcapture hpath hne

/-- A subtracted field of the body is the renderer's. -/
theorem field_mergeResidue {name : String} (hname : [name] ∈ subtracted)
    (hresidue : Residue subtracted req.passthrough) (target : List (String × Json)) :
    field (mergeResidue req.passthrough (.obj target)) name = field (.obj target) name := by
  unfold mergeResidue
  split
  next extra hextra =>
    unfold Passthrough.mergeInto
    by_cases hdialect : extra.dialect = .geminiGenerateContent
    · rw [if_pos hdialect]
      exact field_mergeFrom (hresidue extra hextra hdialect [name] hname) target
    · rw [if_neg hdialect]
  next => rfl

/-- So is a subtracted field of its configuration. -/
theorem field_mergeResidue_config {name : String}
    (hname : ["generationConfig", name] ∈ subtracted)
    (hresidue : Residue subtracted req.passthrough) :
    field (field (mergeResidue req.passthrough (.obj (renderBody req))) "generationConfig") name =
      field (.obj (renderConfig req)) name := by
  have hcfg := lookup_generationConfig req
  have hplain : field (.obj (renderBody req)) "generationConfig" = .obj (renderConfig req) := by
    rw [field_obj, hcfg, Option.some_or, Option.getD_some]
  unfold mergeResidue
  split
  next extra hextra =>
    unfold Passthrough.mergeInto
    by_cases hdialect : extra.dialect = .geminiGenerateContent
    · rw [if_pos hdialect]
      obtain ⟨cfg', heq, hsame⟩ := field_mergeFrom_below extra.body hcfg
      rw [heq]
      exact hsame name (hresidue extra hextra hdialect _ hname)
    · rw [if_neg hdialect, hplain]
  next => rw [hplain]

end Settings

end OpenAIGateway.GeminiRequest
