import OpenAIGateway.ChatParse
import OpenAIGateway.ReadBack

/-!
A Chat Completions stream rendered and read back. The renderer numbers calls by
first sight and the reader finds a call by its number among those it opened, so
the two tables stay equal however the calls interleave. Usage comes back with
the cache writes in the input, as far as the prompt's sum fits the machine word.
-/

set_option linter.all false

namespace OpenAIGateway.Chat

section Chunks

variable (st : RenderState) (acc : StreamAccumulator)

def choiceOf (delta : Json) (finish : Option String) : Json :=
  .obj [("index", .nat 0), ("delta", delta), ("finish_reason", (finish.map Json.str).getD .null)]

/-- A choice that refuses nothing, by its members. -/
theorem parseChoice_unrefused {choice : Json} (content thinking : Option String)
    (calls : List Json) (finish : Option String) (hcontent : nonEmptyStr choice["delta"]["content"] = content)
    (hrefusal : nonEmptyStr choice["delta"]["refusal"] = none)
    (hthinking : (choice["delta"]["reasoning_content"].asStr.or
      choice["delta"]["reasoning"].asStr).filter (fun s => !s.isEmpty) = thinking)
    (hcalls : choice["delta"]["tool_calls"].asArray.getD [] = calls)
    (hfinish : nonEmptyStr choice["finish_reason"] = finish) :
    parseChoice choice acc = (acc, content.toList.map .textDelta ++
      thinking.toList.map .thinkingDelta ++ (parseCalls acc [] calls).2 ++
      finish.toList.flatMap (finishEvents acc (parseCalls acc [] calls).1)) := by
  unfold parseChoice
  simp only [hcontent, hrefusal, hthinking, hcalls, hfinish, Option.isSome_none,
    Bool.false_eq_true, if_false, Option.toList_none, List.map_nil, List.append_nil]

theorem parseChoice_text (text : String) :
    parseChoice (choiceOf (.obj [("content", .str text)]) none) acc =
      (acc, (nonEmptyStr (.str text)).toList.map .textDelta) := by
  rw [parseChoice_unrefused acc (nonEmptyStr (.str text)) none [] none rfl rfl rfl rfl rfl]
  simp [parseCalls]

theorem parseChoice_role (text : String) :
    parseChoice (choiceOf (.obj [("role", .str "assistant"), ("content", .str text)]) none) acc =
      (acc, (nonEmptyStr (.str text)).toList.map .textDelta) := by
  rw [parseChoice_unrefused acc (nonEmptyStr (.str text)) none [] none rfl rfl rfl rfl rfl]
  simp [parseCalls]

theorem parseChoice_thinking (text : String) :
    parseChoice (choiceOf (.obj [("reasoning_content", .str text)]) none) acc =
      (acc, (nonEmptyStr (.str text)).toList.map .thinkingDelta) := by
  rw [parseChoice_unrefused acc none (nonEmptyStr (.str text)) [] none rfl rfl rfl rfl rfl]
  simp [parseCalls]

/-- The announcement of a call, as the renderer writes it. -/
def startJson (index : ℕ) (id name : String) : Json :=
  .obj [("index", .nat index), ("id", .str id), ("type", .str "function"),
    ("function", .obj [("name", .str name), ("arguments", .str "")])]

/-- A fragment of a call's arguments, as the renderer writes it. -/
def deltaJson (index : ℕ) (partialJson : String) : Json :=
  .obj [("index", .nat index), ("function", .obj [("arguments", .str partialJson)])]

theorem parseChoice_start (index : ℕ) {id : String} (name : String) (hid : id ≠ "") :
    parseChoice (choiceOf (.obj [("tool_calls", .arr [startJson index id name])]) none) acc =
      (acc, [.toolUseStart id (acc.restoreFunctionName name)]) := by
  rw [parseChoice_unrefused acc none none [startJson index id name] none rfl rfl rfl rfl rfl]
  have hannounced : nonEmptyStr (startJson index id name)["id"] = some id := by
    show (some id).filter (fun s => !s.isEmpty) = some id
    simp [Option.filter, hid]
  have hsilent : nonEmptyStr (startJson index id name)["function"]["arguments"] = none := rfl
  have hname : (startJson index id name)["function"]["name"].asStr = some name := rfl
  simp [parseCalls, parseCall, hannounced, hsilent, hname]

/-- A fragment is the call's whose number it carries. -/
theorem parseChoice_delta {index : ℕ} {id : String} (partialJson : String)
    (hindex : index < 2 ^ 64) (hid : acc.toolIdAt index = some id) :
    parseChoice (choiceOf (.obj [("tool_calls", .arr [deltaJson index partialJson])]) none) acc =
      (acc, (nonEmptyStr (.str partialJson)).toList.map (.toolUseDelta id)) := by
  rw [parseChoice_unrefused acc none none [deltaJson index partialJson] none rfl rfl rfl rfl rfl]
  have hannounced : nonEmptyStr (deltaJson index partialJson)["id"] = none := rfl
  have harguments : nonEmptyStr (deltaJson index partialJson)["function"]["arguments"] =
      nonEmptyStr (.str partialJson) := rfl
  have hnumber : (deltaJson index partialJson)["index"].asU64 = some index := if_pos hindex
  simp [parseCalls, parseCall, hannounced, harguments, hnumber, resolveOpened, hid]

/-- The finish ends every call and gives the stop reason. -/
theorem parseChoice_finish (word : String) (hword : word ≠ "") :
    parseChoice (choiceOf (.obj []) (some word)) acc = (acc, finishEvents acc [] word) := by
  have hfinish : nonEmptyStr (choiceOf (.obj []) (some word))["finish_reason"] = some word := by
    show (some word).filter (fun s => !s.isEmpty) = some word
    simp [Option.filter, hword]
  rw [parseChoice_unrefused acc none none [] (some word) rfl rfl rfl rfl hfinish]
  simp [parseCalls]

end Chunks

/-- The events before the stop: a call opens before its fragments, under an id of its own. -/
def WellOpened : List String → List StreamEvent → Prop
  | _, [] => True
  | opened, .toolUseStart id _ :: rest => id ≠ "" ∧ id ∉ opened ∧ WellOpened (opened ++ [id]) rest
  | opened, .toolUseDelta id _ :: rest => id ∈ opened ∧ WellOpened opened rest
  | opened, .start _ _ :: rest | opened, .textDelta _ :: rest | opened, .thinkingDelta _ :: rest
  | opened, .toolUseEnd _ :: rest | opened, .usageUpdate _ :: rest => WellOpened opened rest
  | _, .stop _ _ :: _ | _, .error _ :: _ => False

/-- The counts are machine words. -/
structure Word (u : Usage) : Prop where
  inputTokens : u.inputTokens < 2 ^ 64
  outputTokens : u.outputTokens < 2 ^ 64
  cacheReadTokens : u.cacheReadTokens < 2 ^ 64
  cacheWriteTokens : u.cacheWriteTokens < 2 ^ 64

/-- The events of one answer, its one stop last. -/
structure Answer where
  body : List StreamEvent
  reason : StopReason
  usage : Usage
  opened : WellOpened [] body
  /-- The calls are counted by a machine word. -/
  counted : (Told.of body).calls.length < 2 ^ 64
  words : Word (Told.of (body ++ [.stop reason usage])).usage

def Answer.events (a : Answer) : List StreamEvent := a.body ++ [.stop a.reason a.usage]

/-- The frames of an answer. -/
def Answer.frames (a : Answer) (requestId model : String) : List Frame :=
  (renderAll renderEvent a.events (.new requestId model)).2

/-- A stop without a word of its own is the end of the turn, or of a call. -/
def collapse (reason : StopReason) (called : Bool) : StopReason :=
  match reason with
  | .endTurn | .stopSequence => if called then .toolUse else .endTurn
  | reason => reason

/-- The input with the cache writes, which this dialect has no field for. -/
def foldWrites (u : Usage) : Usage where
  inputTokens := u.inputTokens + u.cacheWriteTokens
  outputTokens := u.outputTokens
  cacheReadTokens := u.cacheReadTokens
  cacheWriteTokens := 0

/-- A reading tells what the answer told. -/
structure Restores (a : Answer) (r : Reading) : Prop where
  text : (Told.of r.events).text = (Told.of a.events).text
  thinking : (Told.of r.events).thinking = (Told.of a.events).thinking
  calls : (Told.of r.events).calls = (Told.of a.events).calls
  usage : (Told.of r.events).usage = foldWrites (Told.of a.events).usage
  stop : (Told.of r.events).stop =
    some (collapse a.reason (!(Told.of a.events).calls.isEmpty))
  acc : (Told.of r.events).Agrees r.acc

section Tell

variable (t : Told)

theorem tellAll_text (text : String) :
    t.tellAll ((nonEmptyStr (.str text)).toList.map .textDelta) = { t with text := t.text ++ text } := by
  by_cases h : text = ""
  · subst h
    simp [nonEmptyStr, Json.asStr, Told.tellAll, Option.filter]
  · simp [nonEmptyStr, Json.asStr, Told.tellAll, Option.filter, Told.tell, h]

theorem tellAll_thinking (text : String) :
    t.tellAll ((nonEmptyStr (.str text)).toList.map .thinkingDelta) =
      { t with thinking := t.thinking ++ text } := by
  by_cases h : text = ""
  · subst h
    simp [nonEmptyStr, Json.asStr, Told.tellAll, Option.filter]
  · simp [nonEmptyStr, Json.asStr, Told.tellAll, Option.filter, Told.tell, h]

theorem tellAll_delta (id partialJson : String) :
    t.tellAll ((nonEmptyStr (.str partialJson)).toList.map (.toolUseDelta id)) =
      { t with calls := pushArguments id partialJson t.calls } := by
  by_cases h : partialJson = ""
  · subst h
    simp [nonEmptyStr, Json.asStr, Told.tellAll, Option.filter, Told.pushArguments_empty]
  · simp [nonEmptyStr, Json.asStr, Told.tellAll, Option.filter, Told.tell, h]

end Tell

/-- The renderer and the reader in the middle of an answer that told `t` so far. -/
structure Tracks (t : Told) (st : RenderState) (r : Reading) : Prop where
  told : Told.of r.events = { t with usage := {}, stop := none }
  agrees : (Told.of r.events).Agrees r.acc
  unrefused : r.acc.sawRefusal = false
  names : r.acc.functionNames = {}
  toolIds : st.toolIds = t.calls.map ToldCall.id
  usage : st.usage = t.usage
  unfinished : st.finished = false

section Steps

variable {serde : Serde} {t t' : Told} {st st' : RenderState} {r : Reading}

/-- A payload whose events tell what the renderer took in. -/
theorem Tracks.observe (h : Tracks t st r) (events : List StreamEvent)
    (htold : Told.tellAll { t with usage := {}, stop := none } events =
      { t' with usage := {}, stop := none })
    (hids : st'.toolIds = t'.calls.map ToldCall.id) (husage : st'.usage = t'.usage)
    (hunfinished : st'.finished = false) : Tracks t' st' (r.observe r.acc events) where
  told := by
    unfold Reading.observe
    rw [Told.of_append, h.told, htold]
  agrees := by
    unfold Reading.observe
    rw [Told.of_append]
    exact h.agrees.foldl events
  unrefused := (foldl_observe_kept r.acc events).1.trans h.unrefused
  names := (foldl_observe_kept r.acc events).2.1.trans h.names
  toolIds := hids
  usage := husage
  unfinished := hunfinished

theorem ne_done (hdone : serde.fromStr "[DONE]" = none) {v : Json}
    (hback : serde.fromStr (serde.toString v) = some v) : serde.toString v ≠ "[DONE]" := by
  intro heq
  rw [heq, hdone] at hback
  cases hback

/-- A chunk with no usage is its choice. -/
theorem payload_chunk (hdone : serde.fromStr "[DONE]" = none) {delta : Json}
    {events : List StreamEvent}
    (hback : serde.fromStr (serde.toString (.obj (st.chunk delta none))) =
      some (.obj (st.chunk delta none)))
    (hparse : parseChoice (choiceOf delta none) r.acc = (r.acc, events)) :
    r.payload (parseEvent serde.fromStr) (serde.toString (.obj (st.chunk delta none))) =
      r.observe r.acc events := by
  have hchoice : firstChoice (.obj (st.chunk delta none)) = some (choiceOf delta none) := rfl
  have hreported : reported (.obj (st.chunk delta none)) = none := rfl
  unfold Reading.payload parseEvent
  rw [if_neg (ne_done hdone hback), hback]
  simp only [Option.map_some, hchoice, hreported, hparse, Option.toList_none, List.map_nil,
    List.nil_append]

/-- The number a call is given: its place among the calls so far. -/
theorem toolIndex_new (st : RenderState) {id : String} (h : id ∉ st.toolIds) :
    st.toolIndex id = ({ st with toolIds := st.toolIds ++ [id] }, st.toolIds.length) := by
  have hnone : st.toolIds.findIdx? (· = id) = none := by
    rw [List.findIdx?_eq_none_iff]
    intro other hother
    have hne : other ≠ id := fun heq => h (heq ▸ hother)
    simpa using hne
  unfold RenderState.toolIndex
  rw [hnone]

theorem toolIndex_seen (st : RenderState) {id : String} (h : id ∈ st.toolIds) :
    ∃ index, st.toolIndex id = (st, index) ∧ st.toolIds[index]? = some id := by
  cases hindex : st.toolIds.findIdx? (· = id) with
  | none =>
    have := List.findIdx?_eq_none_iff.mp hindex id h
    simp at this
  | some index =>
    refine ⟨index, ?_, ?_⟩
    · unfold RenderState.toolIndex
      rw [hindex]
    · obtain ⟨hlt, heq, -⟩ := List.findIdx?_eq_some_iff_getElem.mp hindex
      rw [List.getElem?_eq_getElem hlt]
      simpa using heq

/-- An event that is rendered as one chunk, by what the chunk is read as. -/
theorem Tracks.chunk (hdone : serde.fromStr "[DONE]" = none) (h : Tracks t st r) {e : StreamEvent}
    {sent : RenderState} {delta : Json} {events : List StreamEvent}
    (hback : ∀ f ∈ (renderEvent e st).2, serde.fromStr (serde.toString f.data) = some f.data)
    (hrender : renderEvent e st = (st', [frame (sent.chunk delta none)]))
    (hparse : parseChoice (choiceOf delta none) r.acc = (r.acc, events))
    (htold : Told.tellAll { t with usage := {}, stop := none } events =
      { t' with usage := {}, stop := none })
    (hids : st'.toolIds = t'.calls.map ToldCall.id) (husage : st'.usage = t'.usage)
    (hunfinished : st'.finished = false) :
    Tracks t' (renderEvent e st).1
      (r.frames serde (parseEvent serde.fromStr) (renderEvent e st).2) := by
  rw [hrender] at hback ⊢
  have hread := payload_chunk hdone (hback _ (List.mem_singleton_self _)) hparse
  show Tracks t' st' (r.payload (parseEvent serde.fromStr)
    (serde.toString (.obj (sent.chunk delta none))))
  rw [hread]
  exact h.observe events htold hids husage hunfinished

theorem Tracks.text (hdone : serde.fromStr "[DONE]" = none) (h : Tracks t st r) (text : String)
    (hback : ∀ f ∈ (renderEvent (.textDelta text) st).2,
      serde.fromStr (serde.toString f.data) = some f.data) :
    Tracks (t.tell (.textDelta text)) (renderEvent (.textDelta text) st).1
      (r.frames serde (parseEvent serde.fromStr) (renderEvent (.textDelta text) st).2) := by
  -- The first chunk of an answer announces the role as well.
  by_cases hrole : st.roleSent = true
  · have hrender : renderEvent (.textDelta text) st = ({ st with roleSent := true },
        [frame (RenderState.chunk { st with roleSent := true }
          (.obj [("content", .str text)]) none)]) := by
      simp only [renderEvent, if_pos hrole]
    exact h.chunk hdone hback hrender (parseChoice_text r.acc text) (tellAll_text _ text)
      h.toolIds h.usage h.unfinished
  · have hrender : renderEvent (.textDelta text) st = ({ st with roleSent := true },
        [frame (RenderState.chunk { st with roleSent := true }
          (.obj [("role", .str "assistant"), ("content", .str text)]) none)]) := by
      simp only [renderEvent, if_neg hrole]
    exact h.chunk hdone hback hrender (parseChoice_role r.acc text) (tellAll_text _ text)
      h.toolIds h.usage h.unfinished

theorem Tracks.start (hdone : serde.fromStr "[DONE]" = none) (h : Tracks t st r) {id : String}
    (name : String) (hid : id ≠ "") (hnew : id ∉ t.calls.map ToldCall.id)
    (hback : ∀ f ∈ (renderEvent (.toolUseStart id name) st).2,
      serde.fromStr (serde.toString f.data) = some f.data) :
    Tracks (t.tell (.toolUseStart id name)) (renderEvent (.toolUseStart id name) st).1
      (r.frames serde (parseEvent serde.fromStr) (renderEvent (.toolUseStart id name) st).2) := by
  have hindex := toolIndex_new st (h.toolIds ▸ hnew)
  have hname : r.acc.restoreFunctionName name = name := by
    unfold StreamAccumulator.restoreFunctionName
    rw [h.names]
    rfl
  have hrender : renderEvent (.toolUseStart id name) st =
      ({ st with toolIds := st.toolIds ++ [id] },
        [frame (RenderState.chunk { st with toolIds := st.toolIds ++ [id] }
          (.obj [("tool_calls", .arr [startJson st.toolIds.length id name])]) none)]) := by
    simp only [renderEvent, hindex, startJson]
  have hparse := parseChoice_start r.acc st.toolIds.length name hid
  rw [hname] at hparse
  refine h.chunk hdone hback hrender hparse rfl ?_ h.usage h.unfinished
  simp only [Told.tell, List.map_append, List.map_cons, List.map_nil, h.toolIds]

theorem Tracks.delta (hdone : serde.fromStr "[DONE]" = none) (h : Tracks t st r) {id : String}
    (partialJson : String) (hseen : id ∈ t.calls.map ToldCall.id) (hcount : t.calls.length < 2 ^ 64)
    (hback : ∀ f ∈ (renderEvent (.toolUseDelta id partialJson) st).2,
      serde.fromStr (serde.toString f.data) = some f.data) :
    Tracks (t.tell (.toolUseDelta id partialJson)) (renderEvent (.toolUseDelta id partialJson) st).1
      (r.frames serde (parseEvent serde.fromStr)
        (renderEvent (.toolUseDelta id partialJson) st).2) := by
  obtain ⟨index, hindex, hat⟩ := toolIndex_seen st (h.toolIds ▸ hseen)
  -- The two tables of calls are equal, so the number names the same call to the reader.
  have hids : r.acc.toolIds = st.toolIds := by
    rw [h.agrees.toolIds, h.told, h.toolIds]
  have hread : r.acc.toolIdAt index = some id := by
    rw [← hids] at hat
    unfold StreamAccumulator.toolIdAt
    unfold StreamAccumulator.toolIds at hat
    rw [← List.getElem?_map]
    exact hat
  have hlt : index < 2 ^ 64 := by
    have hplace := (List.getElem?_eq_some_iff.mp hat).1
    rw [h.toolIds, List.length_map] at hplace
    omega
  have hrender : renderEvent (.toolUseDelta id partialJson) st =
      (st, [frame (st.chunk (.obj [("tool_calls", .arr [deltaJson index partialJson])]) none)]) := by
    simp only [renderEvent, hindex, deltaJson]
  refine h.chunk hdone hback hrender (parseChoice_delta r.acc partialJson hlt hread)
    (tellAll_delta _ id partialJson) ?_ h.usage h.unfinished
  simp only [Told.tell, Told.map_id_pushArguments, h.toolIds]

/-- One event of the body, rendered and read back. -/
theorem Tracks.step (hdone : serde.fromStr "[DONE]" = none) (h : Tracks t st r) (e : StreamEvent)
    {rest : List StreamEvent} (hopen : WellOpened (t.calls.map ToldCall.id) (e :: rest))
    (hcount : t.calls.length < 2 ^ 64)
    (hback : ∀ f ∈ (renderEvent e st).2, serde.fromStr (serde.toString f.data) = some f.data) :
    Tracks (t.tell e) (renderEvent e st).1
        (r.frames serde (parseEvent serde.fromStr) (renderEvent e st).2) ∧
      WellOpened ((t.tell e).calls.map ToldCall.id) rest := by
  cases e with
  | start model usage =>
    refine ⟨h.chunk hdone hback rfl (parseChoice_role r.acc "") rfl h.toolIds ?_ h.unfinished, hopen⟩
    simp only [Told.tell, h.usage]
  | textDelta text => exact ⟨h.text hdone text hback, hopen⟩
  | thinkingDelta text =>
    exact ⟨h.chunk hdone hback rfl (parseChoice_thinking r.acc text) (tellAll_thinking _ text)
      h.toolIds h.usage h.unfinished, hopen⟩
  | toolUseStart id name =>
    obtain ⟨hid, hnew, hrest⟩ := hopen
    refine ⟨h.start hdone name hid hnew hback, ?_⟩
    simpa only [Told.tell, List.map_append, List.map_cons, List.map_nil] using hrest
  | toolUseDelta id partialJson =>
    obtain ⟨hseen, hrest⟩ := hopen
    refine ⟨h.delta hdone partialJson hseen hcount hback, ?_⟩
    simpa only [Told.tell, Told.map_id_pushArguments] using hrest
  | toolUseEnd id => exact ⟨h, hopen⟩
  | usageUpdate usage =>
    refine ⟨⟨h.told, h.agrees, h.unrefused, h.names, h.toolIds, ?_, h.unfinished⟩, hopen⟩
    simp only [renderEvent, Told.tell, h.usage]
  | stop reason usage => exact hopen.elim
  | error message => exact hopen.elim

theorem length_le_tellAll (t : Told) (events : List StreamEvent) :
    t.calls.length ≤ (t.tellAll events).calls.length := by
  induction events generalizing t with
  | nil => exact le_refl _
  | cons e events ih =>
    have hstep : t.calls.length ≤ (t.tell e).calls.length := by
      cases e with
      | toolUseStart id name => simp [Told.tell]
      | toolUseDelta id partialJson => simp [Told.tell, Told.length_pushArguments]
      | _ => exact le_refl _
    exact le_trans hstep (ih (t.tell e))

/-- The whole body, rendered and read back. -/
theorem Tracks.run (hdone : serde.fromStr "[DONE]" = none) (body : List StreamEvent)
    (h : Tracks t st r) (hopen : WellOpened (t.calls.map ToldCall.id) body)
    (hcount : (t.tellAll body).calls.length < 2 ^ 64)
    (hback : ∀ f ∈ (renderAll renderEvent body st).2,
      serde.fromStr (serde.toString f.data) = some f.data) :
    Tracks (t.tellAll body) (renderAll renderEvent body st).1
      (r.frames serde (parseEvent serde.fromStr) (renderAll renderEvent body st).2) := by
  induction body generalizing t st r with
  | nil => exact h
  | cons e rest ih =>
    rw [renderAll_cons] at hback ⊢
    have hnow : t.calls.length < 2 ^ 64 :=
      lt_of_le_of_lt (length_le_tellAll t (e :: rest)) hcount
    obtain ⟨hstep, hrest⟩ := h.step hdone e hopen hnow
      (fun f hf => hback f (List.mem_append_left _ hf))
    have hrun := ih hstep hrest hcount (fun f hf => hback f (List.mem_append_right _ hf))
    unfold Reading.frames at hrun ⊢
    rw [List.foldl_append]
    exact hrun

/-- The usage of the terminal chunk, as the reader takes it. -/
def readUsage (u : Usage) : Usage where
  inputTokens := u.promptTokens % 2 ^ 64 - u.cacheReadTokens
  outputTokens := u.outputTokens
  cacheReadTokens := u.cacheReadTokens
  cacheWriteTokens := 0

theorem parseUsage_usageJson {u : Usage} (h : Word u) : parseUsage (usageJson u) = readUsage u := by
  obtain ⟨-, hout, hread, -⟩ := h
  have hprompt := u.wrappingAdd_promptTokens
  have hfits : u.promptTokens % 2 ^ 64 < 2 ^ 64 := Nat.mod_lt _ (by decide)
  have hinput : (usageJson u)["prompt_tokens"].asU64 = some (u.promptTokens % 2 ^ 64) := by
    rw [← hprompt] at hfits ⊢
    exact if_pos hfits
  have houtput : (usageJson u)["completion_tokens"].asU64 = some u.outputTokens := if_pos hout
  have hcached : (usageJson u)["prompt_tokens_details"]["cached_tokens"].asU64 =
      some u.cacheReadTokens := if_pos hread
  unfold parseUsage readUsage
  simp only [hinput, houtput, hcached, Option.getD_some]

theorem readUsage_eq_iff {u : Usage} (h : Word u) :
    readUsage u = foldWrites u ↔ u.promptTokens < 2 ^ 64 := by
  obtain ⟨hin, -, hread, hwrite⟩ := h
  unfold readUsage foldWrites Usage.promptTokens
  rw [Usage.mk.injEq]
  simp only [and_true]
  omega

theorem finishReason_finishWord (reason : StopReason) (called : Bool) :
    finishReason (finishWord reason) called false = collapse reason called := by
  cases reason <;> cases called <;> rfl

/-- The stop, rendered and read back after the body. -/
theorem Tracks.stop (hdone : serde.fromStr "[DONE]" = none) (h : Tracks t st r)
    (reason : StopReason) (usage : Usage) (hwords : Word (t.usage.merge usage))
    (hback : ∀ f ∈ (renderEvent (.stop reason usage) st).2,
      serde.fromStr (serde.toString f.data) = some f.data) :
    r.frames serde (parseEvent serde.fromStr) (renderEvent (.stop reason usage) st).2 =
      r.observe r.acc (.usageUpdate (readUsage (t.usage.merge usage)) ::
        (r.acc.toolIds.map .toolUseEnd ++
          [.stop (collapse reason (!t.calls.isEmpty)) {}])) := by
  have hfinish : finishEvents r.acc [] (finishWord reason) = r.acc.toolIds.map .toolUseEnd ++
      [.stop (collapse reason (!t.calls.isEmpty)) {}] := by
    have hcalled : r.acc.sawToolCall = !t.calls.isEmpty := by
      rw [h.agrees.sawToolCall, h.told]
    unfold finishEvents
    simp only [List.filter_nil, List.append_nil, List.isEmpty_nil, Bool.not_true, Bool.or_false,
      hcalled, h.unrefused, finishReason_finishWord]
  have hword : finishWord reason ≠ "" := by
    cases reason <;> decide
  have hparse := parseChoice_finish r.acc (finishWord reason) hword
  rw [hfinish] at hparse
  -- The terminal chunk: a choice that finishes, and the usage beside it.
  obtain ⟨sent, husage, hrender⟩ : ∃ sent : RenderState, sent.usage = t.usage.merge usage ∧
      renderEvent (.stop reason usage) st = (sent, [frame (sent.chunk (.obj [])
        (some (finishWord reason)) ++ [("usage", usageJson (t.usage.merge usage))])]) := by
    refine ⟨{ st with usage := st.usage.merge usage, finished := true }, ?_, ?_⟩
    · rw [h.usage]
    · simp only [renderEvent, h.unfinished, Bool.false_eq_true, if_false, h.usage]
  rw [hrender] at hback ⊢
  have hread := hback _ (List.mem_singleton_self _)
  have hreported : reported (frame (sent.chunk (.obj []) (some (finishWord reason)) ++
      [("usage", usageJson (t.usage.merge usage))])).data =
      some (parseUsage (usageJson (t.usage.merge usage))) := rfl
  have hchoice : firstChoice (frame (sent.chunk (.obj []) (some (finishWord reason)) ++
      [("usage", usageJson (t.usage.merge usage))])).data =
      some (choiceOf (.obj []) (some (finishWord reason))) := rfl
  simp only [Reading.frames, List.foldl_cons, List.foldl_nil, Reading.payload, parseEvent,
    if_neg (ne_done hdone hread), hread, Option.map_some, hreported, hchoice, hparse,
    parseUsage_usageJson hwords, Option.toList_some, List.map_cons, List.map_nil,
    List.singleton_append]

end Steps

section Restore

variable {t : Told} {st : RenderState} {r : Reading}

theorem tellAll_ends (t : Told) (ids : List String) :
    t.tellAll (ids.map .toolUseEnd) = t := by
  induction ids with
  | nil => rfl
  | cons id ids ih => exact ih

/-- What the whole reading told. -/
theorem Tracks.told_stop (h : Tracks t st r) (usage : Usage) (reason : StopReason) :
    Told.of (r.events ++ .usageUpdate usage :: (r.acc.toolIds.map .toolUseEnd ++
      [.stop reason {}])) = { t with usage := usage, stop := some reason } := by
  rw [Told.of_append, h.told]
  unfold Told.tellAll
  rw [List.foldl_cons, List.foldl_append]
  have hends := tellAll_ends (Told.tell { t with usage := {}, stop := none } (.usageUpdate usage))
    r.acc.toolIds
  unfold Told.tellAll at hends
  rw [hends]
  simp [Told.tell, Usage.merge]

end Restore

theorem tracks_new (requestId model : String) :
    Tracks {} (RenderState.new requestId model) {} where
  told := rfl
  agrees := ⟨rfl, rfl, rfl, rfl, rfl⟩
  unrefused := rfl
  names := rfl
  toolIds := rfl
  usage := rfl
  unfinished := rfl

theorem Answer.told (a : Answer) : Told.of a.events = { Told.of a.body with
    usage := (Told.of a.body).usage.merge a.usage, stop := some a.reason } :=
  Told.of_append a.body [.stop a.reason a.usage]

/-- What an answer is read back as. -/
theorem Answer.readBack (serde : Serde) (a : Answer) (requestId model : String)
    (hreads : serde.Reads (a.frames requestId model)) :
    ∃ r : Reading, Reading.frames serde (parseEvent serde.fromStr) {} (a.frames requestId model) = r ∧
      Told.of r.events = { Told.of a.body with
        usage := readUsage (Told.of a.events).usage
        stop := some (collapse a.reason (!(Told.of a.body).calls.isEmpty)) } ∧
      (Told.of r.events).Agrees r.acc := by
  have hsplit : a.frames requestId model =
      (renderAll renderEvent a.body (.new requestId model)).2 ++
        (renderEvent (.stop a.reason a.usage)
          (renderAll renderEvent a.body (.new requestId model)).1).2 := by
    unfold Answer.frames Answer.events
    rw [renderAll_append, renderAll_cons, renderAll_nil, List.append_nil]
  have hback := hreads.back
  rw [hsplit] at hback
  have hbody := Tracks.run hreads.done a.body (tracks_new requestId model) a.opened a.counted
    (fun f hf => hback f (List.mem_append_left _ hf))
  have hwords := a.words
  have htold := a.told
  unfold Answer.events at htold
  rw [htold] at hwords
  have hstop := hbody.stop hreads.done a.reason a.usage hwords
    (fun f hf => hback f (List.mem_append_right _ hf))
  refine ⟨_, rfl, ?_⟩
  rw [hsplit]
  unfold Reading.frames at hstop hbody ⊢
  rw [List.foldl_append, hstop, a.told]
  refine ⟨hbody.told_stop _ _, ?_⟩
  unfold Reading.observe
  rw [Told.of_append]
  exact hbody.agrees.foldl _

/-- Rendering an answer and reading it back restores it exactly when the prompt
side of its usage adds up within the machine word. -/
theorem restores_iff (serde : Serde) (a : Answer) (requestId model : String)
    (hreads : serde.Reads (a.frames requestId model)) :
    Restores a (Reading.frames serde (parseEvent serde.fromStr) {} (a.frames requestId model)) ↔
      (Told.of a.events).usage.promptTokens < 2 ^ 64 := by
  obtain ⟨r, hr, htold, hagrees⟩ := a.readBack serde requestId model hreads
  have hiff : readUsage (Told.of a.events).usage = foldWrites (Told.of a.events).usage ↔
      (Told.of a.events).usage.promptTokens < 2 ^ 64 := readUsage_eq_iff a.words
  rw [hr, ← hiff]
  constructor
  · intro h
    rw [← h.usage, htold]
  · intro husage
    refine ⟨?_, ?_, ?_, ?_, ?_, hagrees⟩
    · rw [htold, a.told]
    · rw [htold, a.told]
    · rw [htold, a.told]
    · rw [htold]
      exact husage
    · rw [htold, a.told]

/-- A greeting and its usage. -/
def greeting (u : Usage) (hwords : Word (Usage.merge {} u)) : Answer where
  body := [.textDelta "hi", .usageUpdate u]
  reason := .endTurn
  usage := {}
  opened := trivial
  counted := Nat.two_pow_pos 64
  words := by
    show Word ((Usage.merge {} u).merge {})
    rw [Usage.merge_default]
    exact hwords

theorem greeting_usage (u : Usage) (hwords : Word (Usage.merge {} u)) :
    (Told.of (greeting u hwords).events).usage = u := by
  show (Usage.merge {} u).merge {} = u
  rw [Usage.merge_default]
  simp [Usage.merge]

def greetingChunk : String :=
  "\x7b\"id\":\"chatcmpl-1\",\"object\":\"chat.completion.chunk\",\"created\":0,\"model\":\"m\"," ++
  "\"choices\":[\x7b\"index\":0,\"delta\":\x7b\"role\":\"assistant\",\"content\":\"hi\"\x7d," ++
  "\"finish_reason\":null\x7d]\x7d"

/-- The terminal chunk of a greeting, around the text of its usage. -/
def greetingStop (usage : String) : String :=
  "\x7b\"id\":\"chatcmpl-1\",\"object\":\"chat.completion.chunk\",\"created\":0,\"model\":\"m\"," ++
  "\"choices\":[\x7b\"index\":0,\"delta\":\x7b\x7d,\"finish_reason\":\"stop\"\x7d],\"usage\":" ++
  usage ++ "\x7d"

def greetingDelta : Json :=
  .obj (RenderState.chunk (.new "1" "m")
    (.obj [("role", .str "assistant"), ("content", .str "hi")]) none)

def greetingFinish (u : Usage) : Json :=
  .obj (RenderState.chunk (.new "1" "m") (.obj []) (some "stop") ++
    [("usage", usageJson ((Usage.merge {} u).merge {}))])

/-- serde_json on the two chunks of a greeting. -/
def greetingSerde (u : Usage) (usage : String) : Serde where
  toString v := if (v.get "usage").isSome then greetingStop usage else greetingChunk
  fromStr text :=
    if text = greetingChunk then some greetingDelta
    else if text = greetingStop usage then some (greetingFinish u)
    else none

theorem greeting_reads (u : Usage) (hwords : Word (Usage.merge {} u)) (usage : String)
    (hstop : greetingStop usage ≠ greetingChunk) (hdone : greetingStop usage ≠ "[DONE]") :
    (greetingSerde u usage).Reads ((greeting u hwords).frames "1" "m") where
  back := by
    have hframes : (greeting u hwords).frames "1" "m" =
        [⟨none, greetingDelta⟩, ⟨none, greetingFinish u⟩] := rfl
    have hdelta : (greetingDelta.get "usage").isSome = false := rfl
    have hfinish : ((greetingFinish u).get "usage").isSome = true := rfl
    rw [hframes]
    intro f hf
    rcases List.mem_pair.mp hf with rfl | rfl
    · simp only [greetingSerde, hdelta, Bool.false_eq_true, if_false, if_true]
    · simp only [greetingSerde, hfinish, if_true, if_neg hstop]
  done := by
    have hfirst : "[DONE]" ≠ greetingChunk := by decide +kernel
    simp only [greetingSerde, if_neg hfirst, if_neg (Ne.symm hdone)]

/-- The usage of a greeting, as it is printed. -/
def eightTokens : String :=
  "\x7b\"prompt_tokens\":8,\"completion_tokens\":2,\"total_tokens\":10," ++
  "\"prompt_tokens_details\":\x7b\"cached_tokens\":0\x7d\x7d"

/-- A greeting whose usage adds up is restored. -/
theorem greeting_restored :
    ∃ a : Answer, (Told.of a.events).usage = ⟨7, 2, 0, 1⟩ ∧
      (greetingSerde ⟨7, 2, 0, 1⟩ eightTokens).Reads (a.frames "1" "m") ∧
      Restores a (Reading.frames (greetingSerde ⟨7, 2, 0, 1⟩ eightTokens)
        (parseEvent (greetingSerde ⟨7, 2, 0, 1⟩ eightTokens).fromStr) {} (a.frames "1" "m")) := by
  have hwords : Word (Usage.merge {} ⟨7, 2, 0, 1⟩) := by
    constructor <;> decide
  have hreads := greeting_reads ⟨7, 2, 0, 1⟩ hwords eightTokens
    (by decide +kernel) (by decide +kernel)
  have hfits : (Told.of (greeting ⟨7, 2, 0, 1⟩ hwords).events).usage.promptTokens < 2 ^ 64 := by
    rw [greeting_usage]
    decide
  exact ⟨greeting ⟨7, 2, 0, 1⟩ hwords, greeting_usage _ hwords, hreads,
    (restores_iff _ (greeting ⟨7, 2, 0, 1⟩ hwords) "1" "m" hreads).mpr hfits⟩

/-- Usage whose prompt side adds up past the machine word, as it is printed. -/
def wrappedTokens : String :=
  "\x7b\"prompt_tokens\":4,\"completion_tokens\":0,\"total_tokens\":4," ++
  "\"prompt_tokens_details\":\x7b\"cached_tokens\":18446744073709551615\x7d\x7d"

/-- The sum wraps to four tokens, and the five input tokens are read back as none. -/
theorem wrapped_usage_lost :
    ∃ a : Answer, (Told.of a.events).usage = ⟨5, 0, 2 ^ 64 - 1, 0⟩ ∧
      (greetingSerde ⟨5, 0, 2 ^ 64 - 1, 0⟩ wrappedTokens).Reads (a.frames "1" "m") ∧
      (Told.of (Reading.frames (greetingSerde ⟨5, 0, 2 ^ 64 - 1, 0⟩ wrappedTokens)
        (parseEvent (greetingSerde ⟨5, 0, 2 ^ 64 - 1, 0⟩ wrappedTokens).fromStr) {}
        (a.frames "1" "m")).events).usage = ⟨0, 0, 2 ^ 64 - 1, 0⟩ ∧
      ¬ Restores a (Reading.frames (greetingSerde ⟨5, 0, 2 ^ 64 - 1, 0⟩ wrappedTokens)
        (parseEvent (greetingSerde ⟨5, 0, 2 ^ 64 - 1, 0⟩ wrappedTokens).fromStr) {}
        (a.frames "1" "m")) := by
  have hwords : Word (Usage.merge {} ⟨5, 0, 2 ^ 64 - 1, 0⟩) := by
    constructor <;> decide
  have hreads := greeting_reads ⟨5, 0, 2 ^ 64 - 1, 0⟩ hwords wrappedTokens
    (by decide +kernel) (by decide +kernel)
  obtain ⟨r, hr, htold, -⟩ := (greeting ⟨5, 0, 2 ^ 64 - 1, 0⟩ hwords).readBack _ "1" "m" hreads
  have husage : (Told.of r.events).usage = ⟨0, 0, 2 ^ 64 - 1, 0⟩ := by
    have hread : readUsage ⟨5, 0, 2 ^ 64 - 1, 0⟩ = ⟨0, 0, 2 ^ 64 - 1, 0⟩ := by decide
    rw [htold, greeting_usage]
    exact hread
  refine ⟨greeting ⟨5, 0, 2 ^ 64 - 1, 0⟩ hwords, greeting_usage _ hwords, hreads, hr ▸ husage, ?_⟩
  rw [hr]
  intro h
  have hsame := husage.symm.trans h.usage
  rw [greeting_usage] at hsame
  exact absurd (congrArg Usage.inputTokens hsame) (by decide)

end OpenAIGateway.Chat
