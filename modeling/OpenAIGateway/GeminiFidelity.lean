import OpenAIGateway.GeminiRequest
import OpenAIGateway.ResiduePaths
import Mathlib.Data.List.TakeWhile

/-!
A Gemini body on its way to a Gemini upstream. A field the parser has no name
for rides in the residue and is in the rendered body as it was; a setting the
hub has a type for is written again from what was read; and the conversation,
the system prompt and the tools are written in the renderer's own form, which
reads back as the same request.
-/

set_option linter.all false

namespace OpenAIGateway.GeminiRequest

section Unnamed

/-- The fields of the body that the parser reads, and the model. -/
def namedFields : List String :=
  ["contents", "systemInstruction", "tools", "toolConfig", "generationConfig", "model"]

/-- The fields of its configuration that the parser reads, and the candidate count. -/
def namedConfig : List String :=
  ["maxOutputTokens", "temperature", "thinkingConfig", "responseMimeType", "responseSchema",
    "stopSequences", "candidateCount"]

variable {toStr : Json → String} {body : Json}

theorem lookup_thinkingConfig (req : HubRequest) :
    (renderConfig req).lookup "thinkingConfig" = thinkingConfig req := by
  simp (disch := decide) only [renderConfig, Json.lookup_setSome_ne]
  refine Json.lookup_setSome_self ?_ _
  simp (disch := decide) only [Json.lookup_setSome_ne]
  rfl

/-- The residue the renderer merges, and the paths that were subtracted for it. -/
theorem follow_mergeResidue {path : List String} {x : Json} (hkeys : body.KeysOnce)
    (h : body.follow path = some x) (hsolid : x.solid = true)
    (hapart : ∀ other ∈ subtracted, ¬ Json.Meets other path)
    (hlevel : Json.Meets thinkingLevel path → foreignLevel (field body "generationConfig") = none)
    {target : Json} (hroom : Json.Room path target) :
    (mergeResidue (parseRequest toStr body).passthrough target).follow path = some x := by
  have hall : ∀ other ∈ (if (foreignLevel (field body "generationConfig")).isSome then
      subtracted ++ [thinkingLevel] else subtracted), ¬ Json.Meets other path := by
    intro other hother
    by_cases hforeign : (foreignLevel (field body "generationConfig")).isSome = true
    · rw [if_pos hforeign] at hother
      rcases List.mem_append.mp hother with hmem | hmem
      · exact hapart other hmem
      · obtain rfl := List.mem_singleton.mp hmem
        intro hmeets
        rw [hlevel hmeets] at hforeign
        cases hforeign
    · rw [if_neg hforeign] at hother
      exact hapart other hother
  obtain ⟨extra, hcapture, hfollow⟩ := Passthrough.follow_capture hkeys h hsolid hall hroom
  have hextra : (parseRequest toStr body).passthrough = some extra := hcapture
  rw [hextra]
  exact hfollow

/-- What is subtracted: fields of the body, fields of its configuration, and the budget. -/
theorem subtracted_cases : ∀ other ∈ subtracted,
    (∃ name ∈ namedFields, name ≠ "generationConfig" ∧ other = [name]) ∨
    (∃ name ∈ namedConfig, name ≠ "thinkingConfig" ∧ other = ["generationConfig", name]) ∨
    other = ["generationConfig", "thinkingConfig", "thinkingBudget"] := by
  decide

theorem not_spells_configKey : ∀ name ∈ namedFields, name ≠ "generationConfig" →
    ∀ key ∈ ["generationConfig", snakeOf "generationConfig"], ¬ Spells name key := by
  decide

theorem not_spells_thinkingKey : ∀ name ∈ namedConfig, name ≠ "thinkingConfig" →
    ∀ key ∈ ["thinkingConfig", snakeOf "thinkingConfig"], ¬ Spells name key := by
  decide

theorem mem_of_spells {name key : String} (h : Spells name key) : key ∈ [name, snakeOf name] := by
  rcases h with rfl | rfl
  · exact List.mem_cons_self ..
  · exact List.mem_cons_of_mem _ (List.mem_cons_self ..)

theorem follow_field {key : String} {x : Json} (hkeys : body.KeysOnce)
    (h : body.follow [key] = some x) (hsolid : x.solid = true)
    (hkey : ∀ name ∈ namedFields, ¬ Spells name key) (req : HubRequest) :
    (mergeResidue (parseRequest toStr body).passthrough (.obj (renderBody req))).follow [key] =
      some x := by
  have hname : ∀ name ∈ namedFields, key ≠ name := by
    intro name hname heq
    exact hkey name hname (Or.inl heq)
  refine follow_mergeResidue hkeys h hsolid ?_ ?_ ⟨_, rfl, ?_⟩
  · intro other hother hmeets
    rcases subtracted_cases other hother with ⟨name, hname, -, rfl⟩ | ⟨name, -, -, rfl⟩ | rfl
    · exact hkey name hname hmeets.1
    · exact hkey "generationConfig" (by decide) hmeets.1
    · exact hkey "generationConfig" (by decide) hmeets.1
  · intro hmeets
    exact absurd hmeets.1 (hkey "generationConfig" (by decide))
  · intro t ht
    have hnone : (renderBody req).lookup key = none := by
      refine lookup_renderBody req ?_
      intro hmem
      have hnamed : ∀ k ∈ ["contents", "generationConfig", "systemInstruction", "tools",
        "toolConfig"], k ∈ namedFields := by decide
      exact hname key (hnamed key hmem) rfl
    rw [hnone] at ht
    cases ht

/-- The configuration is an object of the rendered body, and in the other spelling it is not one
of its fields. -/
theorem room_config {key : String} {rest : List String} (hkey : Spells "generationConfig" key)
    (req : HubRequest) (hroom : Json.Room rest (.obj (renderConfig req))) :
    Json.Room (key :: rest) (.obj (renderBody req)) := by
  refine ⟨_, rfl, ?_⟩
  intro t ht
  rcases hkey with rfl | rfl
  · rw [lookup_generationConfig] at ht
    obtain rfl := Option.some.inj ht
    exact hroom
  · rw [lookup_renderBody req (by decide)] at ht
    cases ht

theorem follow_config {configKey key : String} {x : Json} (hkeys : body.KeysOnce)
    (hconfig : Spells "generationConfig" configKey) (h : body.follow [configKey, key] = some x)
    (hsolid : x.solid = true) (hkey : ∀ name ∈ namedConfig, ¬ Spells name key) (req : HubRequest) :
    (mergeResidue (parseRequest toStr body).passthrough (.obj (renderBody req))).follow
      [configKey, key] = some x := by
  refine follow_mergeResidue hkeys h hsolid ?_ ?_ (room_config hconfig req ⟨_, rfl, ?_⟩)
  · intro other hother hmeets
    rcases subtracted_cases other hother with ⟨name, hname, hne, rfl⟩ | ⟨name, hname, -, rfl⟩ | rfl
    · exact not_spells_configKey name hname hne configKey (mem_of_spells hconfig) hmeets.1
    · exact hkey name hname hmeets.2.1
    · exact hkey "thinkingConfig" (by decide) hmeets.2.1
  · intro hmeets
    exact absurd hmeets.2.1 (hkey "thinkingConfig" (by decide))
  · intro t ht
    have hnone : (renderConfig req).lookup key = none := by
      refine lookup_renderConfig req ?_
      intro hmem
      have hnamed : ∀ k ∈ ["maxOutputTokens", "temperature", "thinkingConfig", "responseMimeType",
        "responseSchema", "stopSequences"], k ∈ namedConfig := by decide
      exact hkey key (hnamed key hmem) (Or.inl rfl)
    rw [hnone] at ht
    cases ht

theorem room_thinking {key tail : String} (hkey : Spells "thinkingConfig" key)
    (htail : ¬ Spells "thinkingBudget" tail) (req : HubRequest) :
    Json.Room [key, tail] (.obj (renderConfig req)) := by
  refine ⟨_, rfl, ?_⟩
  intro t ht
  rcases hkey with rfl | rfl
  · rw [lookup_thinkingConfig] at ht
    obtain ⟨budget, -, rfl⟩ := Option.map_eq_some_iff.mp ht
    refine ⟨_, rfl, ?_⟩
    intro t ht
    rw [Json.lookup_cons_ne (fun heq => htail (Or.inl heq))] at ht
    cases ht
  · rw [lookup_renderConfig req (by decide)] at ht
    cases ht

theorem follow_thinking {configKey thinkingKey key : String} {x : Json} (hkeys : body.KeysOnce)
    (hconfig : Spells "generationConfig" configKey)
    (hthinking : Spells "thinkingConfig" thinkingKey)
    (h : body.follow [configKey, thinkingKey, key] = some x) (hsolid : x.solid = true)
    (hkey : ¬ Spells "thinkingBudget" key)
    (hlevel : Spells "thinkingLevel" key → foreignLevel (field body "generationConfig") = none)
    (req : HubRequest) :
    (mergeResidue (parseRequest toStr body).passthrough (.obj (renderBody req))).follow
      [configKey, thinkingKey, key] = some x := by
  refine follow_mergeResidue hkeys h hsolid ?_ ?_
    (room_config hconfig req (room_thinking hthinking hkey req))
  · intro other hother hmeets
    rcases subtracted_cases other hother with
      ⟨name, hname, hne, rfl⟩ | ⟨name, hname, hne, rfl⟩ | rfl
    · exact not_spells_configKey name hname hne configKey (mem_of_spells hconfig) hmeets.1
    · exact not_spells_thinkingKey name hname hne thinkingKey (mem_of_spells hthinking)
        hmeets.2.1
    · exact hkey hmeets.2.2.1
  · intro hmeets
    exact hlevel hmeets.2.2.1

end Unnamed

section Named

variable (toStr : Json → String) (body : Json)

/-- What a Gemini upstream is sent for a Gemini body. -/
def resent : Json :=
  mergeResidue (parseRequest toStr body).passthrough (.obj (renderBody (parseRequest toStr body)))

theorem field_resent {name : String} (hname : [name] ∈ subtracted) :
    field (resent toStr body) name =
      field (.obj (renderBody (parseRequest toStr body))) name :=
  field_mergeResidue hname (residue_parseRequest toStr body) _

theorem field_resent_config {name : String} (hname : ["generationConfig", name] ∈ subtracted) :
    field (field (resent toStr body) "generationConfig") name =
      field (.obj (renderConfig (parseRequest toStr body))) name :=
  field_mergeResidue_config hname (residue_parseRequest toStr body)

theorem field_temperature (req : HubRequest) :
    field (.obj (renderConfig req)) "temperature" =
      (req.temperature.map Json.float32).getD .null := by
  refine field_of_lookup_self (by decide) ?_
  simp (disch := decide) only [renderConfig, Json.lookup_setSome_ne]
  refine Json.lookup_setSome_self ?_ _
  rfl

theorem follow_field_of_follow {v x : Json} {name : String} {rest : List String}
    (h : v.follow (name :: rest) = some x) : (field v name).follow rest = some x := by
  obtain ⟨y, hget, hrest⟩ := Option.bind_eq_some_iff.mp h
  unfold field
  rw [hget, Option.some_or, Option.getD_some]
  exact hrest

/-- A value of the renderer's that is no object is in the merged body where it was. -/
theorem follow_resent {path : List String} {x : Json} (hx : ∀ members, x ≠ .obj members)
    (h : (Json.obj (renderBody (parseRequest toStr body))).follow path = some x) :
    (resent toStr body).follow path = some x := by
  unfold resent mergeResidue
  split
  next extra _ =>
    unfold Passthrough.mergeInto
    split
    · exact Json.follow_mergeFrom_kept extra.body h hx
    · exact h
  next => exact h

variable {toStr body}

theorem resent_maxOutputTokens {n : UInt32}
    (h : field (field body "generationConfig") "maxOutputTokens" = .u32 n) :
    field (field (resent toStr body) "generationConfig") "maxOutputTokens" = .u32 n := by
  rw [field_resent_config toStr body (by decide), field_maxOutputTokens]
  change Json.u32 (((field (field body "generationConfig") "maxOutputTokens").asU64.bind
    u32TryFrom).getD 4096) = _
  rw [h, Json.asU64_u32, Option.bind_some, u32TryFrom_toNat, Option.getD_some]

theorem resent_stopSequences {stop : List String} (hne : stop ≠ [])
    (h : field (field body "generationConfig") "stopSequences" = .arr (stop.map Json.str)) :
    field (field (resent toStr body) "generationConfig") "stopSequences" =
      .arr (stop.map Json.str) := by
  have hread : (parseRequest toStr body).stop = stop := by
    change ((field (field body "generationConfig") "stopSequences").asArray.getD []).filterMap
      Json.asStr = stop
    rw [h]
    change (stop.map Json.str).filterMap Json.asStr = stop
    rw [List.filterMap_map]
    exact List.filterMap_some
  rw [field_resent_config toStr body (by decide), field_stopSequences, hread]
  cases stop with
  | nil => exact absurd rfl hne
  | cons s stop => rfl

theorem resent_responseSchema
    (h : field (field body "generationConfig") "responseSchema" ≠ .null) :
    field (field (resent toStr body) "generationConfig") "responseSchema" =
      field (field body "generationConfig") "responseSchema" := by
  have hread : (parseRequest toStr body).responseFormat =
      some (.jsonSchema "response" (field (field body "generationConfig") "responseSchema")
        true) := by
    change parseResponseFormat (field body "generationConfig") = _
    unfold parseResponseFormat
    split
    next hnull => exact absurd hnull h
    next => rfl
  rw [field_resent_config toStr body (by decide), field_responseSchema, hread]
  rfl

theorem resent_responseMimeType
    (h : field (field body "generationConfig") "responseMimeType" = .str "application/json" ∨
      field (field body "generationConfig") "responseMimeType" = .str "text/plain" ∧
      field (field body "generationConfig") "responseSchema" = .null) :
    field (field (resent toStr body) "generationConfig") "responseMimeType" =
      field (field body "generationConfig") "responseMimeType" := by
  rw [field_resent_config toStr body (by decide), field_responseMimeType]
  change ((parseResponseFormat (field body "generationConfig")).map responseMimeType).getD .null = _
  unfold parseResponseFormat
  rcases h with hjson | ⟨htext, hschema⟩
  · rw [hjson]
    split
    next => rfl
    next => rfl
  · rw [htext, hschema]
    rfl

theorem resent_temperature {x : Float}
    (hx : (field (field body "generationConfig") "temperature").asF64 = some x)
    (hsingle : Json.float32 x.toFloat32 = field (field body "generationConfig") "temperature") :
    field (field (resent toStr body) "generationConfig") "temperature" =
      field (field body "generationConfig") "temperature" := by
  rw [field_resent_config toStr body (by decide), field_temperature]
  change (((field (field body "generationConfig") "temperature").asF64.map Float.toFloat32).map
    Json.float32).getD .null = _
  rw [hx]
  exact hsingle

theorem resent_thinkingBudget {n : UInt32}
    (h : field (field (field body "generationConfig") "thinkingConfig") "thinkingBudget" = .u32 n) :
    field (field (field (resent toStr body) "generationConfig") "thinkingConfig")
      "thinkingBudget" = .u32 n := by
  have hread : thinkingConfig (parseRequest toStr body) =
      some (.obj [("thinkingBudget", .u32 n)]) := by
    have hbudget : (parseRequest toStr body).thinkingBudget = some n := by
      change (field (field (field body "generationConfig") "thinkingConfig")
        "thinkingBudget").asU64.bind u32TryFrom = some n
      rw [h, Json.asU64_u32, Option.bind_some, u32TryFrom_toNat]
    unfold thinkingConfig
    rw [hbudget]
    rfl
  have hfollow : (Json.obj (renderBody (parseRequest toStr body))).follow
      ["generationConfig", "thinkingConfig", "thinkingBudget"] = some (.u32 n) := by
    change ((renderBody (parseRequest toStr body)).lookup "generationConfig").bind _ = _
    rw [lookup_generationConfig, Option.bind_some]
    change ((renderConfig (parseRequest toStr body)).lookup "thinkingConfig").bind _ = _
    rw [lookup_thinkingConfig, hread]
    rfl
  have hresent := follow_resent toStr body (fun members => Json.noConfusion) hfollow
  have hfield := follow_field_of_follow (follow_field_of_follow (follow_field_of_follow hresent))
  exact Option.some.inj hfield

end Named

section Conversation

variable (toStr : Json → String)

/-- A block as this dialect's parser makes it: a call is its function's name. -/
def Native : ContentBlock → Prop
  | .text _ cacheControl => cacheControl = none
  | .image _ _ => True
  | .toolUse id name _ => id = name
  | .toolResult _ content isError => (∃ s, content = .text s) ∧ isError = false
  | .thinking _ _ => False

/-- The result is addressed by a function's name, which has no ordinal after it. -/
def Unnumbered : ContentBlock → Prop
  | .toolResult id _ _ => '#' ∉ id.toList
  | _ => True

theorem native_parsePart {p : Json} {b : ContentBlock} (h : parsePart toStr p = some b) :
    Native b := by
  unfold parsePart at h
  split at h
  next text _ =>
    obtain rfl := Option.some.inj h
    rfl
  next =>
    split at h
    · obtain rfl := Option.some.inj h
      rfl
    · split at h
      · obtain rfl := Option.some.inj h
        exact ⟨⟨_, rfl⟩, rfl⟩
      · split at h
        · obtain ⟨mediaType, -, h⟩ := Option.bind_eq_some_iff.mp h
          obtain ⟨data, -, h⟩ := Option.bind_eq_some_iff.mp h
          obtain rfl := Option.some.inj h
          exact trivial
        · cases h

/-- A turn as the parser makes it. -/
structure NativeTurn (m : Message) : Prop where
  role : m.role = .user ∨ m.role = .assistant
  content : m.content ≠ []
  blocks : ∀ b ∈ m.content, Native b

theorem native_parseContent {v : Json} {m : Message} (h : parseContent toStr v = some m) :
    NativeTurn m := by
  obtain ⟨parts, -, h⟩ := Option.bind_eq_some_iff.mp h
  by_cases hempty : (parts.filterMap (parsePart toStr)).isEmpty = true
  · rw [if_pos hempty] at h
    cases h
  · rw [if_neg hempty] at h
    obtain rfl := Option.some.inj h
    refine ⟨?_, ?_, ?_⟩
    · change (if _ then Role.assistant else Role.user) = _ ∨ _
      split
      · exact Or.inr rfl
      · exact Or.inl rfl
    · intro hnil
      exact hempty (List.isEmpty_iff.mpr hnil)
    · intro b hb
      obtain ⟨p, -, hp⟩ := List.mem_filterMap.mp hb
      exact native_parsePart toStr hp

theorem functionName_of_notMem {id : String} (h : '#' ∉ id.toList) : functionName id = id := by
  have hall : id.toList.takeWhile (fun c => c ≠ '#') = id.toList := by
    refine List.takeWhile_eq_self_iff.mpr ?_
    intro c hc
    refine decide_eq_true ?_
    rintro rfl
    exact h hc
  unfold functionName
  rw [hall, String.ofList_toList]

/-- Calls go by their names, so a result finds its own. -/
theorem lookup_toolNames {messages : List Message} (h : ∀ m ∈ messages, NativeTurn m)
    {id name : String} (hlookup : (toolNames messages).lookup id = some name) : name = id := by
  have hmem := List.mem_reverse.mp (Json.mem_of_lookup hlookup)
  obtain ⟨b, hb, hpair⟩ := List.mem_filterMap.mp hmem
  obtain ⟨m, hm, hbm⟩ := List.mem_flatMap.mp hb
  have hnative := (h m hm).blocks b hbm
  cases b with
  | toolUse callId callName input =>
    obtain ⟨rfl, rfl⟩ := Prod.mk.inj (Option.some.inj hpair)
    exact hnative.symm
  | _ => cases hpair

theorem resultName_eq {messages : List Message} (h : ∀ m ∈ messages, NativeTurn m) {id : String}
    (hid : '#' ∉ id.toList) : ((toolNames messages).lookup id).getD (functionName id) = id := by
  cases hlookup : (toolNames messages).lookup id with
  | none => exact functionName_of_notMem hid
  | some name => exact lookup_toolNames h hlookup

theorem parsePart_renderPart {messages : List Message} (h : ∀ m ∈ messages, NativeTurn m)
    {b : ContentBlock} (hb : Native b) (hresult : Unnumbered b) :
    ∃ p, renderPart (toolNames messages) b = some p ∧ parsePart toStr p = some b := by
  cases b with
  | text text cacheControl =>
    obtain rfl : cacheControl = none := hb
    exact ⟨_, rfl, rfl⟩
  | image mediaType data => exact ⟨_, rfl, rfl⟩
  | toolUse id name input =>
    obtain rfl : id = name := hb
    exact ⟨_, rfl, rfl⟩
  | toolResult id content isError =>
    obtain ⟨⟨s, rfl⟩, rfl⟩ := hb
    refine ⟨_, rfl, ?_⟩
    rw [resultName_eq h hresult]
    rfl
  | thinking text signature => exact absurd hb id

theorem parseContent_renderMessage {messages : List Message} (h : ∀ m ∈ messages, NativeTurn m)
    {m : Message} (hm : m ∈ messages) (hresults : ∀ b ∈ m.content, Unnumbered b) :
    parseContent toStr (renderMessage (toolNames messages) m) = some m := by
  obtain ⟨hrole, hne, hblocks⟩ := h m hm
  have hcontent : (m.content.filterMap (renderPart (toolNames messages))).filterMap
      (parsePart toStr) = m.content := by
    rw [List.filterMap_filterMap]
    calc m.content.filterMap _ = m.content.filterMap some := by
          refine List.filterMap_congr ?_
          intro b hb
          obtain ⟨p, hp, hparse⟩ := parsePart_renderPart toStr h (hblocks b hb) (hresults b hb)
          rw [hp]
          exact hparse
      _ = m.content := List.filterMap_some
  obtain ⟨role, content⟩ := m
  change (if ((content.filterMap (renderPart (toolNames messages))).filterMap
      (parsePart toStr)).isEmpty = true then none else some _) = _
  rw [hcontent, if_neg (fun hempty => hne (List.isEmpty_iff.mp hempty))]
  rcases hrole with hrole | hrole
  · obtain rfl : role = .user := hrole
    rfl
  · obtain rfl : role = .assistant := hrole
    rfl

theorem filterMap_renderMessage {messages : List Message} (h : ∀ m ∈ messages, NativeTurn m)
    (hresults : ∀ m ∈ messages, ∀ b ∈ m.content, Unnumbered b) :
    (messages.map (renderMessage (toolNames messages))).filterMap (parseContent toStr) =
      messages := by
  rw [List.filterMap_map]
  calc messages.filterMap (parseContent toStr ∘ renderMessage (toolNames messages))
      = messages.filterMap some := List.filterMap_congr (fun m hm =>
        parseContent_renderMessage toStr h hm (hresults m hm))
    _ = messages := List.filterMap_some

theorem field_contents (req : HubRequest) :
    field (.obj (renderBody req)) "contents" =
      .arr (req.messages.map (renderMessage (toolNames req.messages))) := by
  have hcamel : (renderBody req).lookup "contents" =
      some (.arr (req.messages.map (renderMessage (toolNames req.messages)))) := by
    simp (disch := decide) only [renderBody, Json.lookup_setSome_ne]
    rfl
  rw [field_obj, hcamel, Option.some_or, Option.getD_some]

variable {toStr} {body : Json}

theorem native_messages : ∀ m ∈ (parseRequest toStr body).messages, NativeTurn m := by
  intro m hm
  obtain ⟨v, -, hv⟩ := List.mem_filterMap.mp hm
  exact native_parseContent toStr hv

/-- The conversation that is sent on reads as the one that was received. -/
theorem messages_resent
    (hresults : ∀ m ∈ (parseRequest toStr body).messages, ∀ b ∈ m.content, Unnumbered b) :
    (parseRequest toStr (resent toStr body)).messages = (parseRequest toStr body).messages := by
  change ((field (resent toStr body) "contents").asArray.getD []).filterMap (parseContent toStr) = _
  rw [field_resent toStr body (by decide), field_contents]
  exact filterMap_renderMessage toStr native_messages hresults

/-- One written in the renderer's form is sent on as it is. -/
theorem resent_contents {messages : List Message} (h : ∀ m ∈ messages, NativeTurn m)
    (hresults : ∀ m ∈ messages, ∀ b ∈ m.content, Unnumbered b)
    (hbody : field body "contents" = .arr (messages.map (renderMessage (toolNames messages)))) :
    field (resent toStr body) "contents" = field body "contents" := by
  have hread : (parseRequest toStr body).messages = messages := by
    change ((field body "contents").asArray.getD []).filterMap (parseContent toStr) = _
    rw [hbody]
    exact filterMap_renderMessage toStr h hresults
  rw [field_resent toStr body (by decide), field_contents, hread, hbody]

end Conversation

section Instructions

variable {toStr : Json → String} {body : Json}

theorem field_systemInstruction (req : HubRequest) :
    field (.obj (renderBody req)) "systemInstruction" = (renderSystem req.system).getD .null := by
  refine field_of_lookup ?_ (lookup_renderBody req (by decide))
  simp (disch := decide) only [renderBody, Json.lookup_setSome_ne]
  refine Json.lookup_setSome_self ?_ _
  rfl

theorem field_tools (req : HubRequest) :
    field (.obj (renderBody req)) "tools" = (renderTools req.tools).getD .null := by
  refine field_of_lookup_self (by decide) ?_
  simp (disch := decide) only [renderBody, Json.lookup_setSome_ne]
  refine Json.lookup_setSome_self ?_ _
  simp (disch := decide) only [Json.lookup_setSome_ne]
  rfl

/-- The system prompt is sent on as one text with the words of all of them. -/
theorem system_resent :
    String.intercalate "\n\n" (blockTexts (parseRequest toStr (resent toStr body)).system) =
      String.intercalate "\n\n" (blockTexts (parseRequest toStr body).system) := by
  change String.intercalate "\n\n" (blockTexts (parseSystem
    (field (resent toStr body) "systemInstruction"))) = _
  rw [field_resent toStr body (by decide), field_systemInstruction]
  cases (parseRequest toStr body).system with
  | nil => rfl
  | cons block blocks => rfl

theorem resent_systemInstruction {text : String}
    (h : field body "systemInstruction" = .obj [("parts", .arr [.obj [("text", .str text)]])]) :
    field (resent toStr body) "systemInstruction" = field body "systemInstruction" := by
  have hread : (parseRequest toStr body).system = [.text text none] := by
    change parseSystem (field body "systemInstruction") = _
    rw [h]
    rfl
  rw [field_resent toStr body (by decide), field_systemInstruction, hread, h]
  rfl

theorem parseTool_renderTool {t : Tool} (h : t.cacheControl = none) :
    parseTool (renderTool t) = some t := by
  obtain ⟨name, description, inputSchema, cacheControl⟩ := t
  obtain rfl : cacheControl = none := h
  rfl

theorem cacheControl_parseTool {d : Json} {t : Tool} (h : parseTool d = some t) :
    t.cacheControl = none := by
  obtain ⟨name, -, h⟩ := Option.bind_eq_some_iff.mp h
  obtain rfl := Option.some.inj h
  rfl

theorem parseTools_renderTools {tools : List Tool} (h : ∀ t ∈ tools, t.cacheControl = none) :
    ((((renderTools tools).getD .null).asArray.getD []).filterMap (fun entry =>
      (field entry "functionDeclarations").asArray)).flatten.filterMap parseTool = tools := by
  cases tools with
  | nil => rfl
  | cons t tools =>
    change [((t :: tools).map renderTool)].flatten.filterMap parseTool = _
    rw [List.flatten_singleton, List.filterMap_map]
    calc (t :: tools).filterMap (parseTool ∘ renderTool) = (t :: tools).filterMap some :=
          List.filterMap_congr (fun t ht => parseTool_renderTool (h t ht))
      _ = t :: tools := List.filterMap_some

theorem tools_resent :
    (parseRequest toStr (resent toStr body)).tools = (parseRequest toStr body).tools := by
  change (((field (resent toStr body) "tools").asArray.getD []).filterMap (fun entry =>
    (field entry "functionDeclarations").asArray)).flatten.filterMap parseTool = _
  rw [field_resent toStr body (by decide), field_tools]
  refine parseTools_renderTools ?_
  intro t ht
  obtain ⟨d, -, hd⟩ := List.mem_filterMap.mp ht
  exact cacheControl_parseTool hd

theorem resent_tools {tools : List Tool} (h : ∀ t ∈ tools, t.cacheControl = none)
    (hbody : renderTools tools = some (field body "tools")) :
    field (resent toStr body) "tools" = field body "tools" := by
  have hread : (parseRequest toStr body).tools = tools := by
    change (((field body "tools").asArray.getD []).filterMap (fun entry =>
      (field entry "functionDeclarations").asArray)).flatten.filterMap parseTool = _
    have hback := parseTools_renderTools h
    rw [hbody] at hback
    exact hback
  rw [field_resent toStr body (by decide), field_tools, hread, hbody, Option.getD_some]

theorem toolChoice_resent :
    (parseRequest toStr (resent toStr body)).toolChoice = (parseRequest toStr body).toolChoice := by
  change parseToolChoice (field (field (resent toStr body) "toolConfig")
    "functionCallingConfig") = _
  rw [field_resent toStr body (by decide), field_toolConfig, parseToolChoice_renderToolChoice]

theorem resent_toolConfig {choice : ToolChoice}
    (h : field body "toolConfig" = .obj [("functionCallingConfig", renderToolChoice choice)]) :
    field (resent toStr body) "toolConfig" = field body "toolConfig" := by
  have hread : (parseRequest toStr body).toolChoice = some choice := by
    change parseToolChoice (field (field body "toolConfig") "functionCallingConfig") = _
    rw [h]
    exact parseToolChoice_renderToolChoice (some choice)
  rw [field_resent toStr body (by decide), field_toolConfig, hread, h]
  rfl

end Instructions

/-- What of a Gemini body is in the body sent on for it, field by field. A field without a name
here is in it as it was, in the spelling it had. One the hub has a type for is in it when the
type can hold its value, and the four that are written anew when they already have the form the
renderer gives them; those four always read as the same request. -/
structure Fidelity (toStr : Json → String) (body rendered : Json) : Prop where
  unnamed : ∀ key v, body.follow [key] = some v → v.solid = true →
    (∀ name ∈ namedFields, ¬ Spells name key) → rendered.follow [key] = some v
  unnamedConfig : ∀ configKey key v, Spells "generationConfig" configKey →
    body.follow [configKey, key] = some v → v.solid = true →
    (∀ name ∈ namedConfig, ¬ Spells name key) → rendered.follow [configKey, key] = some v
  -- A level in another dialect's word is sent as the budget it stands for.
  unnamedThinking : ∀ configKey thinkingKey key v, Spells "generationConfig" configKey →
    Spells "thinkingConfig" thinkingKey → body.follow [configKey, thinkingKey, key] = some v →
    v.solid = true → ¬ Spells "thinkingBudget" key →
    (Spells "thinkingLevel" key → foreignLevel (field body "generationConfig") = none) →
    rendered.follow [configKey, thinkingKey, key] = some v
  maxOutputTokens : ∀ n : UInt32,
    field (field body "generationConfig") "maxOutputTokens" = .u32 n →
    field (field rendered "generationConfig") "maxOutputTokens" = .u32 n
  thinkingBudget : ∀ n : UInt32,
    field (field (field body "generationConfig") "thinkingConfig") "thinkingBudget" = .u32 n →
    field (field (field rendered "generationConfig") "thinkingConfig") "thinkingBudget" = .u32 n
  -- The hub holds a single, so a double that is none comes back as the nearest.
  temperature : ∀ x : Float,
    (field (field body "generationConfig") "temperature").asF64 = some x →
    Json.float32 x.toFloat32 = field (field body "generationConfig") "temperature" →
    field (field rendered "generationConfig") "temperature" =
      field (field body "generationConfig") "temperature"
  responseSchema : field (field body "generationConfig") "responseSchema" ≠ .null →
    field (field rendered "generationConfig") "responseSchema" =
      field (field body "generationConfig") "responseSchema"
  responseMimeType :
    field (field body "generationConfig") "responseMimeType" = .str "application/json" ∨
      field (field body "generationConfig") "responseMimeType" = .str "text/plain" ∧
      field (field body "generationConfig") "responseSchema" = .null →
    field (field rendered "generationConfig") "responseMimeType" =
      field (field body "generationConfig") "responseMimeType"
  stopSequences : ∀ stop : List String, stop ≠ [] →
    field (field body "generationConfig") "stopSequences" = .arr (stop.map Json.str) →
    field (field rendered "generationConfig") "stopSequences" = .arr (stop.map Json.str)
  contents : ∀ messages : List Message, (∀ m ∈ messages, NativeTurn m) →
    (∀ m ∈ messages, ∀ b ∈ m.content, Unnumbered b) →
    field body "contents" = .arr (messages.map (renderMessage (toolNames messages))) →
    field rendered "contents" = field body "contents"
  systemInstruction : ∀ text : String,
    field body "systemInstruction" = .obj [("parts", .arr [.obj [("text", .str text)]])] →
    field rendered "systemInstruction" = field body "systemInstruction"
  tools : ∀ tools : List Tool, (∀ t ∈ tools, t.cacheControl = none) →
    renderTools tools = some (field body "tools") → field rendered "tools" = field body "tools"
  toolConfig : ∀ choice : ToolChoice,
    field body "toolConfig" = .obj [("functionCallingConfig", renderToolChoice choice)] →
    field rendered "toolConfig" = field body "toolConfig"
  readMessages :
    (∀ m ∈ (parseRequest toStr body).messages, ∀ b ∈ m.content, Unnumbered b) →
    (parseRequest toStr rendered).messages = (parseRequest toStr body).messages
  readSystem :
    String.intercalate "\n\n" (blockTexts (parseRequest toStr rendered).system) =
      String.intercalate "\n\n" (blockTexts (parseRequest toStr body).system)
  readTools : (parseRequest toStr rendered).tools = (parseRequest toStr body).tools
  readToolChoice : (parseRequest toStr rendered).toolChoice = (parseRequest toStr body).toolChoice

/-- A body that came in this dialect always renders in it, and says what it said. -/
theorem same_dialect_fidelity (toStr : Json → String) {body : Json} (hkeys : body.KeysOnce) :
    ∃ rendered, renderRequest (parseRequest toStr body) = .ok rendered ∧
      Fidelity toStr body rendered := by
  refine ⟨resent toStr body, rfl, ?_⟩
  exact {
    unnamed := fun key v h hsolid hkey => follow_field hkeys h hsolid hkey _
    unnamedConfig := fun configKey key v hconfig h hsolid hkey =>
      follow_config hkeys hconfig h hsolid hkey _
    unnamedThinking := fun configKey thinkingKey key v hconfig hthinking h hsolid hkey hlevel =>
      follow_thinking hkeys hconfig hthinking h hsolid hkey hlevel _
    maxOutputTokens := fun n h => resent_maxOutputTokens h
    thinkingBudget := fun n h => resent_thinkingBudget h
    temperature := fun x hx hsingle => resent_temperature hx hsingle
    responseSchema := resent_responseSchema
    responseMimeType := resent_responseMimeType
    stopSequences := fun stop hne h => resent_stopSequences hne h
    contents := fun messages h hresults hbody => resent_contents h hresults hbody
    systemInstruction := fun text h => resent_systemInstruction h
    tools := fun tools h hbody => resent_tools h hbody
    toolConfig := fun choice h => resent_toolConfig h
    readMessages := messages_resent
    readSystem := system_resent
    readTools := tools_resent
    readToolChoice := toolChoice_resent }

/-- A body whose configuration has a field of its own in it. -/
def sampled : Json :=
  .obj [("contents", .arr [.obj [("role", .str "user"),
      ("parts", .arr [.obj [("text", .str "hi")]])]]),
    ("generationConfig", .obj [("topK", .nat 40), ("maxOutputTokens", .nat 64)])]

theorem same_dialect_fidelity_sampled :
    ∃ rendered, renderRequest (parseRequest (fun _ => "") sampled) = .ok rendered ∧
      rendered.follow ["generationConfig", "topK"] = some (.nat 40) := by
  have hconfig : (Json.obj [("topK", .nat 40), ("maxOutputTokens", .nat 64)]).KeysOnce :=
    .cons (by decide) (Json.keysOnce_of_ne_obj nofun)
      (.cons (by decide) (Json.keysOnce_of_ne_obj nofun) Json.keysOnce_nil)
  have hkeys : sampled.KeysOnce :=
    .cons (by decide) (Json.keysOnce_of_ne_obj nofun) (.cons (by decide) hconfig Json.keysOnce_nil)
  obtain ⟨rendered, hrender, hfidelity⟩ := same_dialect_fidelity (fun _ => "") hkeys
  refine ⟨rendered, hrender, ?_⟩
  exact hfidelity.unnamedConfig "generationConfig" "topK" (.nat 40) (Or.inl rfl) rfl rfl (by decide)

/-- A turn without a role, which is the user's. -/
def roleless : Json :=
  .obj [("contents", .arr [.obj [("parts", .arr [.obj [("text", .str "hi")]])]])]

/-- The renderer says whose turn it is, so the field is not the client's. -/
theorem roleless_gets_a_role :
    ∃ rendered v, renderRequest (parseRequest (fun _ => "") roleless) = .ok rendered ∧
      roleless.follow ["contents"] = some v ∧ rendered.follow ["contents"] ≠ some v := by
  refine ⟨_, _, rfl, rfl, ?_⟩
  intro h
  have hturn := (List.cons.inj (Json.arr.inj (Option.some.inj h))).1
  have hmember := (List.cons.inj (Json.obj.inj hturn)).1
  exact absurd (Prod.mk.inj hmember).1 (by decide)

end OpenAIGateway.GeminiRequest
