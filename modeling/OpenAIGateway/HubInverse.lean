import OpenAIGateway.MessageBlocks

/-!
A message read into events and rebuilt from them. Each block's events add what
it says to what the hub already holds, so the rebuilt message says the runs of
what the message said.
-/

set_option linter.all false

namespace OpenAIGateway

section Events

variable (fromStr : String → Option Json) (toStr : Json → String)

/-- What a block under assembly says once it is finished. -/
def OpenBlock.said : OpenBlock → Said
  | .text words => .text words
  | .thinking words => .thinking words
  | .tool id name input => .call ⟨id, name, (fromStr input).getD (.obj [])⟩

theorem OpenBlock.block_said (b : OpenBlock) : (b.said fromStr).block = b.intoJson fromStr := by
  cases b <;> rfl

/-- The events that say this; a call's arguments are its input, printed. -/
def Said.events : Said → List StreamEvent
  | .text words => [.textDelta words]
  | .thinking words => [.thinkingDelta words]
  | .call c => (ToldCall.mk c.id c.name (toStr c.input)).events

theorem parseBlock_eq (block : Json) :
    Anthropic.parseBlock toStr block = (said block).toList.flatMap (Said.events toStr) := by
  unfold Anthropic.parseBlock said
  generalize block["type"].asStr.getD "" = kind
  split
  · rfl
  · rfl
  · rfl
  · simp [*]

theorem flatMap_parseBlock (blocks : List Json) :
    blocks.flatMap (Anthropic.parseBlock toStr) =
      (blocks.filterMap said).flatMap (Said.events toStr) := by
  induction blocks with
  | nil => rfl
  | cons block blocks ih =>
    rw [List.flatMap_cons, ih, parseBlock_eq, List.filterMap_cons]
    cases said block with
    | none => rfl
    | some s => simp

/-- The input of a call is read back from what it is printed as. -/
def Said.ReadsBack (s : Said) : Prop := ∀ c ∈ s.calls, fromStr (toStr c.input) = some c.input

/-- What the hub's open block says so far. -/
def Hub.pending (hub : Hub) : List Said := hub.block.toList.map (OpenBlock.said fromStr)

/-- The hub holds what it is told, with `rest` still to come. -/
structure Takes (hub hub' : Hub) (s : Said) : Prop where
  said : ∀ rest,
    hub'.content ++ (Runs.runs Said.glue (hub'.pending fromStr ++ rest)).map Said.block =
      hub.content ++ (Runs.runs Said.glue (hub.pending fromStr ++ s :: rest)).map Said.block
  usage : hub'.usage = hub.usage
  stop : hub'.stopReason = hub.stopReason
  model : hub'.model = hub.model

variable {fromStr toStr} {hub hub' : Hub}

/-- The open block goes on. -/
theorem takes_glued {b : OpenBlock} {s : Said} (b' : OpenBlock)
    (hhub : hub' = { hub with block := some b' }) (hopen : hub.block = some b)
    (hglue : Said.glue (b.said fromStr) s = some (b'.said fromStr)) : Takes fromStr hub hub' s := by
  subst hhub
  refine ⟨?_, rfl, rfl, rfl⟩
  intro rest
  simp only [Hub.pending, hopen, Option.toList_some, List.map_cons, List.map_nil,
    List.singleton_append, Runs.runs_cons]
  rw [Runs.push_push Said.lawful_glue hglue]

/-- The open block is closed, and another opened. -/
theorem takes_apart {s : Said} (b' : OpenBlock)
    (hhub : hub' = { hub.closeBlock fromStr with block := some b' }) (hs : b'.said fromStr = s)
    (hapart : ∀ b, hub.block = some b → Said.glue (b.said fromStr) s = none) :
    Takes fromStr hub hub' s := by
  subst hhub
  refine ⟨?_, rfl, rfl, rfl⟩
  intro rest
  cases hopen : hub.block with
  | none => simp [Hub.pending, Hub.closeBlock, hopen, hs]
  | some b =>
    simp only [Hub.pending, Hub.closeBlock, hopen, Option.toList_some, List.map_cons,
      List.map_nil, List.singleton_append, Runs.runs_cons, hs]
    rw [Runs.push_push_of_apart Said.lawful_glue (hapart b hopen), List.map_cons,
      OpenBlock.block_said, List.append_assoc, List.singleton_append]

theorem takes_text (words : String) :
    Takes fromStr hub (hub.event fromStr (.textDelta words)) (.text words) := by
  cases hopen : hub.block with
  | none =>
    apply takes_apart (.text words) (by simp only [Hub.event, hopen]) rfl
    simp [hopen]
  | some b =>
    cases b with
    | text buf =>
      apply takes_glued (.text (buf ++ words)) _ hopen rfl
      simp only [Hub.event, hopen]
    | thinking buf | tool id name input =>
      apply takes_apart (.text words) (by simp only [Hub.event, hopen]) rfl
      intro b hb
      obtain rfl := Option.some.inj (hopen.symm.trans hb)
      rfl

theorem takes_thinking (words : String) :
    Takes fromStr hub (hub.event fromStr (.thinkingDelta words)) (.thinking words) := by
  cases hopen : hub.block with
  | none =>
    apply takes_apart (.thinking words) (by simp only [Hub.event, hopen]) rfl
    simp [hopen]
  | some b =>
    cases b with
    | thinking buf =>
      apply takes_glued (.thinking (buf ++ words)) _ hopen rfl
      simp only [Hub.event, hopen]
    | text buf | tool id name input =>
      apply takes_apart (.thinking words) (by simp only [Hub.event, hopen]) rfl
      intro b hb
      obtain rfl := Option.some.inj (hopen.symm.trans hb)
      rfl

theorem Takes.close {s : Said} (h : Takes fromStr hub hub' s)
    (hinert : ∀ s' ∈ hub'.pending fromStr, ∀ other, Said.glue s' other = none) :
    Takes fromStr hub (hub'.closeBlock fromStr) s where
  said := by
    intro rest
    rw [← h.said rest]
    cases hopen : hub'.block with
    | none => simp [Hub.pending, Hub.closeBlock, hopen]
    | some b =>
      have hnone : ∀ other, Said.glue (b.said fromStr) other = none := by
        apply hinert
        simp [Hub.pending, hopen]
      simp [Hub.pending, Hub.closeBlock, hopen, Runs.runs_cons, Runs.push_of_inert hnone,
        OpenBlock.block_said]
  usage := h.usage
  stop := h.stop
  model := h.model

/-- A call that comes whole is opened, filled and closed. -/
theorem takes_call (c : MessageCall) (hback : fromStr (toStr c.input) = some c.input) :
    Takes fromStr hub ((Said.events toStr (.call c)).foldl (Hub.event fromStr) hub) (.call c) := by
  have hevents : (Said.events toStr (.call c)).foldl (Hub.event fromStr) hub =
      { hub.closeBlock fromStr with
        block := some (.tool c.id c.name ("" ++ toStr c.input)) }.closeBlock fromStr := by
    simp only [Said.events, ToldCall.events, List.foldl_cons, List.foldl_nil, Hub.event, if_true]
  have hsaid : OpenBlock.said fromStr (.tool c.id c.name ("" ++ toStr c.input)) = .call c := by
    simp only [OpenBlock.said, String.empty_append, hback, Option.getD_some]
  rw [hevents]
  refine (takes_apart (.tool c.id c.name ("" ++ toStr c.input)) rfl hsaid ?_).close ?_
  · intro b _
    cases b <;> rfl
  · intro s' hs' other
    rw [List.mem_singleton.mp hs', hsaid]
    rfl

theorem takes_said (s : Said) (hback : s.ReadsBack fromStr toStr) :
    Takes fromStr hub ((s.events toStr).foldl (Hub.event fromStr) hub) s := by
  cases s with
  | text words => exact takes_text words
  | thinking words => exact takes_thinking words
  | call c => exact takes_call c (hback c (List.mem_singleton_self c))

/-- The hub, after the events of everything that is said. -/
theorem foldl_said {ss : List Said} (hback : ∀ s ∈ ss, s.ReadsBack fromStr toStr) (hub : Hub) :
    (((ss.flatMap (Said.events toStr)).foldl (Hub.event fromStr) hub).closeBlock fromStr).content =
        hub.content ++ (Runs.runs Said.glue (hub.pending fromStr ++ ss)).map Said.block ∧
      ((ss.flatMap (Said.events toStr)).foldl (Hub.event fromStr) hub).usage = hub.usage ∧
      ((ss.flatMap (Said.events toStr)).foldl (Hub.event fromStr) hub).stopReason =
        hub.stopReason ∧
      ((ss.flatMap (Said.events toStr)).foldl (Hub.event fromStr) hub).model = hub.model := by
  induction ss generalizing hub with
  | nil =>
    refine ⟨?_, rfl, rfl, rfl⟩
    cases hopen : hub.block with
    | none => simp [Hub.pending, Hub.closeBlock, hopen, Runs.runs]
    | some b =>
      simp [Hub.pending, Hub.closeBlock, hopen, Runs.runs, Runs.push, OpenBlock.block_said]
  | cons s ss ih =>
    obtain ⟨hs, hrest⟩ := List.forall_mem_cons.mp hback
    have htakes : Takes fromStr hub _ s := takes_said s hs
    obtain ⟨hcontent, husage, hstop, hmodel⟩ :=
      ih hrest ((s.events toStr).foldl (Hub.event fromStr) hub)
    rw [List.flatMap_cons, List.foldl_append]
    exact ⟨hcontent.trans (htakes.said ss), husage.trans htakes.usage, hstop.trans htakes.stop,
      hmodel.trans htakes.model⟩

end Events

namespace Anthropic

section Rebuilt

variable (fromStr : String → Option Json) (toStr : Json → String) (requestId model : String)

/-- A message read into events and rendered again. -/
def rebuilt (body : Json) : Json :=
  renderFromEvents fromStr (parseResponse toStr body) requestId model

/-- The stop word of a message that calls. -/
def stopFor (called : Bool) (word : String) : String :=
  if called ∧ word = "end_turn" then "tool_use" else word

/-- The five stop words there are reasons for; any other word ends the turn. -/
def knownStop (word : String) : String :=
  if word ∈ ["end_turn", "max_tokens", "stop_sequence", "tool_use", "refusal"] then word
  else "end_turn"

/-- A message keeps what another says, with neighbouring runs of one kind made one, its usage and
its stop word. -/
structure Keeps (stop : Bool → String → String) (body out : Json) : Prop where
  said : saidIn out = Runs.runs Said.glue (saidIn body)
  usage : parseUsage out["usage"] = parseUsage body["usage"]
  stop : out["stop_reason"].asStr = body["stop_reason"].asStr.map (stop (!(callsIn body).isEmpty))

/-- A message that says this. -/
def messageSaying (ss : List Said) (stop : Option StopReason) (usage : Usage) : Json :=
  .obj [("id", .str ("msg_" ++ requestId)), ("type", .str "message"), ("role", .str "assistant"),
    ("model", .str model), ("content", .arr (ss.map Said.block)),
    ("stop_reason", (stop.map (fun reason => .str (stopReasonStr
      (normalised reason (!(ss.flatMap Said.calls).isEmpty))))).getD .null),
    ("stop_sequence", .null), ("usage", usageJson usage)]

theorem any_block_toolUse (ss : List Said) :
    (ss.map Said.block).any (fun b => b["type"].asStr = some "tool_use") =
      !(ss.flatMap Said.calls).isEmpty := by
  induction ss with
  | nil => rfl
  | cons s ss ih =>
    rw [List.map_cons, List.any_cons, ih]
    cases s with
    | text words | thinking words => rfl
    | call c => exact Bool.true_or _

variable {fromStr toStr} {body : Json}

theorem rebuilt_eq (hback : ∀ c ∈ callsIn body, fromStr (toStr c.input) = some c.input) :
    rebuilt fromStr toStr requestId model body =
      messageSaying requestId model (Runs.runs Said.glue (saidIn body))
        (body["stop_reason"].asStr.map parseStopReason) (parseUsage body["usage"]) := by
  have hreads : ∀ s ∈ saidIn body, s.ReadsBack fromStr toStr :=
    fun s hs c hc => hback c (List.mem_flatMap.mpr ⟨s, hs, hc⟩)
  have husage : Usage.merge {} (parseUsage body["usage"]) = parseUsage body["usage"] := by
    simp [Usage.merge]
  have hsame : (parseUsage body["usage"]).merge (parseUsage body["usage"]) =
      parseUsage body["usage"] := by
    simp [Usage.merge]
  have hevents : parseResponse toStr body = .usageUpdate (parseUsage body["usage"]) ::
      (saidIn body).flatMap (Said.events toStr) ++ body["stop_reason"].asStr.toList.map
        (fun reason => .stop (parseStopReason reason) (parseUsage body["usage"])) := by
    unfold parseResponse saidIn
    rw [flatMap_parseBlock]
    rfl
  obtain ⟨hcontent, hkept, hstop, hmodel⟩ :=
    foldl_said hreads { model := model, usage := parseUsage body["usage"] }
  unfold rebuilt renderFromEvents
  rw [hevents, List.cons_append, List.foldl_cons, List.foldl_append]
  have hfirst : Hub.event fromStr { model := model } (.usageUpdate (parseUsage body["usage"])) =
      { model := model, usage := parseUsage body["usage"] } := by
    simp only [Hub.event, husage]
  rw [hfirst]
  generalize ((saidIn body).flatMap (Said.events toStr)).foldl (Hub.event fromStr)
    { model := model, usage := parseUsage body["usage"] } = hub at *
  have hclosed : (hub.closeBlock fromStr).content =
      (Runs.runs Said.glue (saidIn body)).map Said.block := hcontent
  have hend : ∀ stop : Option String, ∃ last : Hub,
      ((stop.toList.map (fun reason => StreamEvent.stop (parseStopReason reason)
        (parseUsage body["usage"]))).foldl (Hub.event fromStr) hub).closeBlock fromStr = last ∧
      last.content = (Runs.runs Said.glue (saidIn body)).map Said.block ∧
      last.usage = parseUsage body["usage"] ∧ last.stopReason = stop.map parseStopReason ∧
      last.model = model := by
    intro stop
    cases stop with
    | none => exact ⟨_, rfl, hclosed, hkept, hstop, hmodel⟩
    | some word =>
      exact ⟨_, rfl, hclosed, (congrArg (Usage.merge · _) hkept).trans hsame, rfl, hmodel⟩
  obtain ⟨last, hlast, hblocks, hcounts, hreason, hname⟩ := hend body["stop_reason"].asStr
  unfold messageSaying
  simp only [hlast, hblocks, hcounts, hreason, hname, any_block_toolUse]

theorem saidIn_messageSaying (ss : List Said) (stop : Option StopReason) (usage : Usage) :
    saidIn (messageSaying requestId model ss stop usage) = ss :=
  Said.filterMap_said_block ss

/-- Making neighbours one loses no call. -/
theorem calls_runs (ss : List Said) :
    (Runs.runs Said.glue ss).flatMap Said.calls = ss.flatMap Said.calls := by
  apply Runs.flatMap_runs
  intro a b c hglue
  cases a <;> cases b <;> cases hglue <;> rfl

theorem stop_messageSaying (ss : List Said) (stop : Option StopReason) (usage : Usage) :
    (messageSaying requestId model ss stop usage)["stop_reason"].asStr =
      stop.map (fun reason =>
        stopReasonStr (normalised reason (!(ss.flatMap Said.calls).isEmpty))) := by
  cases stop <;> rfl

theorem stopReasonStr_normalised (called : Bool) (word : String) :
    stopReasonStr (normalised (parseStopReason word) called) =
      stopFor called (knownStop word) := by
  unfold parseStopReason
  split
  · cases called <;> rfl
  · cases called <;> rfl
  · cases called <;> rfl
  · cases called <;> rfl
  · rename_i hlength hsequence htool hrefusal
    have hend : knownStop word = "end_turn" := by
      unfold knownStop
      split
      · simp_all
      · rfl
    rw [hend]
    cases called <;> rfl

theorem normalised_twice (reason : StopReason) (called : Bool) :
    normalised (normalised reason called) called = normalised reason called := by
  cases reason <;> cases called <;> rfl

/-- Reading a rebuilt message and rendering it once more changes nothing. -/
theorem rebuilt_messageSaying {ss : List Said} (stop : Option StopReason) {usage : Usage}
    (hsettled : Runs.Settled Said.glue ss) (hword : Chat.Word usage)
    (hback : ∀ c ∈ ss.flatMap Said.calls, fromStr (toStr c.input) = some c.input) :
    rebuilt fromStr toStr requestId model (messageSaying requestId model ss stop usage) =
      messageSaying requestId model ss stop usage := by
  have hcalls : callsIn (messageSaying requestId model ss stop usage) = ss.flatMap Said.calls :=
    congrArg (List.flatMap Said.calls) (saidIn_messageSaying requestId model ss stop usage)
  rw [← hcalls] at hback
  rw [rebuilt_eq requestId model hback, saidIn_messageSaying, Runs.runs_of_settled hsettled,
    stop_messageSaying]
  have husage : parseUsage (messageSaying requestId model ss stop usage)["usage"] = usage :=
    parseUsage_usageJson hword
  rw [husage]
  cases stop with
  | none => rfl
  | some reason =>
    unfold messageSaying
    simp only [Option.map_some, parseStopReason_stopReasonStr, normalised_twice]

/-- Rendering a message from its events keeps what it says, and doing so again keeps the message. -/
theorem hub_inverse (fromStr : String → Option Json) (toStr : Json → String)
    (requestId model : String) (body : Json)
    (hback : ∀ c ∈ callsIn body, fromStr (toStr c.input) = some c.input) :
    Keeps (fun called word => stopFor called (knownStop word)) body
        (rebuilt fromStr toStr requestId model body) ∧
      rebuilt fromStr toStr requestId model (rebuilt fromStr toStr requestId model body) =
        rebuilt fromStr toStr requestId model body := by
  rw [rebuilt_eq requestId model hback]
  constructor
  · refine ⟨saidIn_messageSaying requestId model _ _ _,
      parseUsage_usageJson (word_parseUsage body["usage"]), ?_⟩
    rw [stop_messageSaying, Option.map_map, calls_runs]
    congr 1
    funext word
    exact stopReasonStr_normalised _ word
  · apply rebuilt_messageSaying requestId model _ (Runs.settled_runs Said.lawful_glue _)
      (word_parseUsage body["usage"])
    rw [calls_runs]
    exact hback

/-! A message that calls, and one that stopped with a word there is no reason for. -/

def readFileInput : Json := .obj [("path", .str "a.rs")]

def readFileText : String := "\x7b\"path\":\"a.rs\"\x7d"

/-- serde_json on the input of the call. -/
def readFileFromStr (text : String) : Option Json :=
  if text = readFileText then some readFileInput else none

def noTokens : Json := usageJson {}

def callingMessage : Json :=
  .obj [("id", .str "msg_orig"), ("type", .str "message"), ("role", .str "assistant"),
    ("content", .arr [.obj [("type", .str "text"), ("text", .str "Reading")],
      .obj [("type", .str "text"), ("text", .str " it now.")],
      .obj [("type", .str "tool_use"), ("id", .str "toolu_1"), ("name", .str "read_file"),
        ("input", readFileInput)]]),
    ("stop_reason", .str "end_turn"), ("usage", noTokens)]

def pausedMessage : Json :=
  .obj [("id", .str "msg_orig"), ("type", .str "message"), ("role", .str "assistant"),
    ("content", .arr [.obj [("type", .str "text"), ("text", .str "Searching.")]]),
    ("stop_reason", .str "pause_turn"), ("usage", noTokens)]

theorem calling_message_kept :
    Keeps (fun called word => stopFor called (knownStop word)) callingMessage
        (rebuilt readFileFromStr (fun _ => readFileText) "req1" "m" callingMessage) ∧
      rebuilt readFileFromStr (fun _ => readFileText) "req1" "m"
          (rebuilt readFileFromStr (fun _ => readFileText) "req1" "m" callingMessage) =
        rebuilt readFileFromStr (fun _ => readFileText) "req1" "m" callingMessage := by
  apply hub_inverse
  intro c hc
  obtain rfl : c = ⟨"toolu_1", "read_file", readFileInput⟩ := List.mem_singleton.mp hc
  exact if_pos rfl

theorem paused_turn_ended :
    ¬ ∀ (fromStr : String → Option Json) (toStr : Json → String) requestId model body,
      (∀ c ∈ callsIn body, fromStr (toStr c.input) = some c.input) →
        Keeps stopFor body (rebuilt fromStr toStr requestId model body) ∧
          rebuilt fromStr toStr requestId model (rebuilt fromStr toStr requestId model body) =
            rebuilt fromStr toStr requestId model body := by
  intro hall
  have hcalls : callsIn pausedMessage = [] := rfl
  obtain ⟨hkept, -⟩ := hall readFileFromStr (fun _ => readFileText) "req1" "m" pausedMessage
    (by simp [hcalls])
  have hstop : some "end_turn" = some "pause_turn" := hkept.stop
  exact absurd hstop (by decide)

end Rebuilt

end Anthropic

end OpenAIGateway
