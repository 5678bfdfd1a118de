import OpenAIGateway.Escalation
import OpenAIGateway.ResponsesReaders

/-!
The streamed and the whole-body reader of the Responses dialect. Both tell the
text and the summaries of an answer; the words of a refusal only the whole body
is read for, and the raw reasoning only the stream.
-/

set_option linter.all false

namespace OpenAIGateway.Responses

/-- The refusals hold as many bytes as the raw reasoning, or both lengths saturate. -/
def SameBytes (output : List OutputItem) : Prop :=
  total OutputItem.refusalBytes output = total OutputItem.rawBytes output ∨
    (u64Max ≤ total OutputItem.textBytes output + total OutputItem.refusalBytes output ∧
      u64Max ≤ total OutputItem.textBytes output + total OutputItem.rawBytes output)

namespace Streamed

variable {fromStr : String → Option Json}

/-- Fold `parse_event` over the stream. -/
def streamReading (a : Streamed fromStr) (names : FunctionNameMap) : Reading :=
  (a.payloads ++ [a.terminal]).foldl (Reading.payload (parseEvent fromStr)) (unread names)

/-- Fold `parse_response` of the complete body, its names restored. -/
def bodyReading (a : Streamed fromStr) (names : FunctionNameMap) : Reading :=
  (unread names).observe (unread names).acc (names.restoreInEvents (parseResponse a.body))

end Streamed

/-- Two readings agree: in the accumulator, in the calls by name, and in the gate's verdict. -/
structure SameAnswer (fromStr : String → Option Json) (r s : Reading) : Prop where
  textLen : r.acc.textLen = s.acc.textLen
  toolCalls : r.acc.toolCalls = s.acc.toolCalls
  toolBuffers : r.acc.toolBuffers = s.acc.toolBuffers
  calls : (Told.of r.events).calls = (Told.of s.events).calls
  stopReason : r.acc.stopReason = s.acc.stopReason
  usage : r.acc.usage = s.acc.usage
  gate : r.acc.qualityGate fromStr = s.acc.qualityGate fromStr

section Agreement

variable {fromStr : String → Option Json} {names : FunctionNameMap}

/-- Why the response ended, by what its output holds. -/
def Streamed.stop (a : Streamed fromStr) : StopReason :=
  stopReason a.body["incomplete_details"]["reason"].asStr (a.output.any OutputItem.refusing)
    (a.output.any OutputItem.isCall)

/-- A reading of the whole answer, as far as the readers agree on it. -/
structure Streamed.Outcome (a : Streamed fromStr) (bytes : ℕ) (heard : List ToldCall)
    (r : Reading) : Prop where
  agrees : (Told.of r.events).Agrees r.acc
  bytes : bytesOf (Told.of r.events) = bytes
  calls : (Told.of r.events).calls = heard
  usage : (Told.of r.events).usage =
    (Usage.merge {} (parseUsage a.body["usage"])).merge (parseUsage a.body["usage"])
  stop : (Told.of r.events).stop = some a.stop
  parsed : r.acc.unparsed = false

theorem Streamed.body_outcome (a : Streamed fromStr) (names : FunctionNameMap)
    (hids : names.toolUseIds = {}) :
    a.Outcome (total OutputItem.bodyBytes a.output) ((calls names a.output).foldl hear [])
      (a.bodyReading names) := by
  obtain ⟨vs, houtput, hshown⟩ := a.shown
  have hrefuses : vs.any refuses = a.output.any OutputItem.refusing :=
    any_of_forall₂ (fun _ _ h => shows_refuses h) hshown
  have hcalled : vs.any (isType "function_call") = a.output.any OutputItem.isCall :=
    any_of_forall₂ (fun _ _ h => shows_isCall h) hshown
  have hevents : names.restoreInEvents (parseResponse a.body) =
      .usageUpdate (parseUsage a.body["usage"]) ::
        (names.restoreInEvents (vs.flatMap parseItem) ++
          [.stop a.stop (parseUsage a.body["usage"])]) := by
    simp only [parseResponse, houtput, Option.getD_some, hrefuses, hcalled, Streamed.stop,
      FunctionNameMap.restoreInEvents, List.map_cons, List.map_append, List.map_nil,
      List.cons_append, FunctionNameMap.restoreInEvent]
  have hadds := adds_items hids hshown (Told.tell {} (.usageUpdate (parseUsage a.body["usage"])))
  have hreads := (reads_unread names).observe (names.restoreInEvents (parseResponse a.body))
  -- The body tells its usage, then its items, then why it stopped.
  have htold : Told.tellAll {} (names.restoreInEvents (parseResponse a.body)) =
      ((Told.tell {} (.usageUpdate (parseUsage a.body["usage"]))).tellAll
        (names.restoreInEvents (vs.flatMap parseItem))).tell
          (.stop a.stop (parseUsage a.body["usage"])) := by
    rw [hevents, Told.tellAll, List.foldl_cons, List.foldl_append]
    rfl
  rw [htold] at hreads
  have hof := hreads.told
  refine ⟨?_, ?_, ?_, ?_, ?_, hreads.parsed⟩
  · rw [bodyReading, hof]
    exact hreads.agrees
  · rw [bodyReading, hof]
    exact hadds.bytes.trans (Nat.zero_add _)
  · rw [bodyReading, hof]
    exact hadds.calls
  · rw [bodyReading, hof]
    exact congrArg (fun u => Usage.merge u (parseUsage a.body["usage"])) hadds.usage
  · rw [bodyReading, hof]
    rfl

/-- The events of a stream tell nothing of its usage and its end. -/
theorem told_open (names : FunctionNameMap) (sent : List Sent) (t : Told) :
    (sent.foldl (Sent.told names) t).usage = t.usage ∧
      (sent.foldl (Sent.told names) t).stop = t.stop := by
  induction sent generalizing t with
  | nil => exact ⟨rfl, rfl⟩
  | cons e sent ih =>
    have hstep : (e.told names t).usage = t.usage ∧ (e.told names t).stop = t.stop := by
      cases e with
      | itemAdded item => cases item <;> exact ⟨rfl, rfl⟩
      | _ => exact ⟨rfl, rfl⟩
    obtain ⟨husage, hstop⟩ := ih (e.told names t)
    exact ⟨husage.trans hstep.1, hstop.trans hstep.2⟩

/-- What is told of a stream keeps count of what it assembles. -/
structure Counted (names : FunctionNameMap) (items : List OutputItem) (t : Told) : Prop where
  bytes : bytesOf t = total OutputItem.streamBytes items
  opened : t.calls.length = (calls names items).length

theorem Counted.step {items items' : List OutputItem} {t : Told} {e : Sent}
    (h : Counted names items t) (hstep : assemble items e = some items') :
    Counted names items' (e.told names t) where
  bytes := by
    rw [bytesOf_told, h.bytes, assemble_bytes hstep]
  opened := by
    obtain ⟨hitems, htold⟩ | ⟨id, name, hitems, htold⟩ |
      ⟨i, delta, before, call, after, rfl, hcalls, hitems, -⟩ := assemble_calls names t hstep
    · rw [hitems, htold, h.opened]
    · rw [hitems, htold, List.length_append, List.length_append, h.opened]
    · have hlength := h.opened
      rw [hcalls] at hlength
      rw [hitems]
      simpa [Sent.told, Told.length_pushArguments] using hlength

theorem Streamed.counted (a : Streamed fromStr) (names : FunctionNameMap) :
    Counted names a.output (a.sent.foldl (Sent.told names) {}) :=
  Transition.simulation_run (fun _ _ _ _ h _ hstep => h.step hstep) ⟨rfl, rfl⟩
    (Transition.allSteps_true _ _) a.assembled

theorem Streamed.stream_outcome (a : Streamed fromStr) (names : FunctionNameMap) :
    a.Outcome (total OutputItem.streamBytes a.output)
      (a.sent.foldl (Sent.told names) {}).calls (a.streamReading names) := by
  obtain ⟨vs, houtput, hshown⟩ := a.shown
  obtain ⟨v, hv, hbody, htype⟩ := a.ended
  have hreads := reads_payloads (reads_unread names) a.carried
  have hcounted := a.counted names
  obtain ⟨husage, hstop⟩ := told_open names a.sent {}
  generalize a.sent.foldl (Sent.told names) {} = t at *
  generalize hr : a.payloads.foldl (Reading.payload (parseEvent fromStr)) (unread names) = r at *
  have hread : a.streamReading names = r.observe r.acc (terminalEvents a.body r.acc) := by
    unfold Streamed.streamReading
    rw [List.foldl_append, hr, List.foldl_cons, List.foldl_nil, payload_eq hv, ← hbody]
    rcases htype with htype | htype <;> simp [payloadEvents, htype]
  -- The calls it saw open are the calls of the output.
  have hsaw : r.acc.sawToolCall = a.output.any OutputItem.isCall := by
    rw [hreads.agrees.sawToolCall]
    have hiff := any_isCall_eq_false_iff names a.output
    rw [← List.length_eq_zero_iff, ← hcounted.opened, List.length_eq_zero_iff] at hiff
    cases hcalls : t.calls <;> simp_all
  have hevents : terminalEvents a.body r.acc = [.usageUpdate (parseUsage a.body["usage"]),
      .stop a.stop (parseUsage a.body["usage"])] := by
    have hrefuses : vs.any hasRefusal = a.output.any OutputItem.refusing :=
      any_of_forall₂ (fun _ _ h => shows_hasRefusal h) hshown
    have hcalled : vs.any (isType "function_call") = a.output.any OutputItem.isCall :=
      any_of_forall₂ (fun _ _ h => shows_isCall h) hshown
    simp only [terminalEvents, houtput, Option.getD_some, hrefuses, hcalled, hsaw, Bool.or_self,
      Streamed.stop]
  have hend := hreads.observe (terminalEvents a.body r.acc)
  rw [← hread, hevents] at hend
  have hof := hend.told
  refine ⟨?_, ?_, ?_, ?_, ?_, hend.parsed⟩
  · rw [hof]
    exact hend.agrees
  · rw [hof]
    exact hcounted.bytes
  · rw [hof]
    rfl
  · rw [hof]
    show (t.usage.merge _).merge _ = _
    rw [husage]
  · rw [hof]
    rfl

theorem qualityGate_congr {acc acc' : StreamAccumulator} (hparsed : acc.unparsed = acc'.unparsed)
    (htext : acc.textLen = acc'.textLen) (hcount : acc.toolCalls = acc'.toolCalls)
    (hbuffers : acc.toolBuffers = acc'.toolBuffers) (hstop : acc.stopReason = acc'.stopReason) :
    acc.qualityGate fromStr = acc'.qualityGate fromStr := by
  unfold StreamAccumulator.qualityGate
  rw [hparsed, htext, hcount, hbuffers, hstop]

/-- Two readings of an answer are the same where their lengths and their calls are. -/
theorem Streamed.Outcome.same_iff {a : Streamed fromStr} {m n : ℕ} {cs ds : List ToldCall}
    {r s : Reading} (h : a.Outcome m cs r) (h' : a.Outcome n ds s) :
    SameAnswer fromStr r s ↔ min m u64Max = min n u64Max ∧ cs = ds := by
  have htext : r.acc.textLen = min m u64Max := by
    rw [h.agrees.textLen, ← h.bytes]
    rfl
  have htext' : s.acc.textLen = min n u64Max := by
    rw [h'.agrees.textLen, ← h'.bytes]
    rfl
  constructor
  · intro hsame
    refine ⟨?_, ?_⟩
    · rw [← htext, ← htext', hsame.textLen]
    · rw [← h.calls, ← h'.calls, hsame.calls]
  · rintro ⟨hlength, rfl⟩
    have hcalls : (Told.of r.events).calls = (Told.of s.events).calls := h.calls.trans h'.calls.symm
    have hlen : r.acc.textLen = s.acc.textLen := by rw [htext, htext', hlength]
    have hcount : r.acc.toolCalls = s.acc.toolCalls := by
      rw [h.agrees.toolCalls, h'.agrees.toolCalls, hcalls]
    have hbuffers : r.acc.toolBuffers = s.acc.toolBuffers := by
      rw [h.agrees.toolBuffers, h'.agrees.toolBuffers, hcalls]
    have hstop : r.acc.stopReason = s.acc.stopReason := by
      rw [h.agrees.stopReason, h'.agrees.stopReason, h.stop, h'.stop]
    refine ⟨hlen, hcount, hbuffers, hcalls, hstop, ?_, ?_⟩
    · rw [h.agrees.usage, h'.agrees.usage, h.usage, h'.usage]
    · exact qualityGate_congr (h.parsed.trans h'.parsed.symm) hlen hcount hbuffers hstop

theorem total_add (f g : OutputItem → ℕ) (items : List OutputItem) :
    total (fun item => f item + g item) items = total f items + total g items :=
  List.sum_map_add ..

/-- The lengths agree exactly where the refusals and the raw reasoning are as long as each other,
short of saturation. -/
theorem same_length_iff (output : List OutputItem) :
    min (total OutputItem.streamBytes output) u64Max =
      min (total OutputItem.bodyBytes output) u64Max ↔ SameBytes output := by
  have hstream : total OutputItem.streamBytes output =
      total OutputItem.textBytes output + total OutputItem.rawBytes output := total_add ..
  have hbody : total OutputItem.bodyBytes output =
      total OutputItem.textBytes output + total OutputItem.refusalBytes output := total_add ..
  unfold SameBytes
  rw [hstream, hbody]
  omega

theorem Streamed.heard (a : Streamed fromStr) (names : FunctionNameMap)
    (haddressed : Transition.AllSteps assemble Addressed [] a.sent) :
    Heard names a.output (a.sent.foldl (Sent.told names) {}) := by
  have hgood : ∀ items t e items', Heard names items t → Addressed items e →
      assemble items e = some items' → Heard names items' (Sent.told names t e) :=
    fun _ _ _ _ h hok hstep => h.step hok hstep
  exact Transition.simulation_run hgood (heard_nil names) haddressed a.assembled

/-- With distinct ids, calls told in full were each addressed while they were the last. -/
theorem Streamed.addressed (a : Streamed fromStr) (names : FunctionNameMap)
    (hnodup : ((calls names a.output).map ToldCall.id).Nodup)
    (hheard : Heard names a.output (a.sent.foldl (Sent.told names) {})) :
    Transition.AllSteps assemble Addressed [] a.sent := by
  have hgood : ∀ items t e items', Heard names items t → Addressed items e →
      assemble items e = some items' → Heard names items' (Sent.told names t e) :=
    fun _ _ _ _ h hok hstep => h.step hok hstep
  have hbad : ∀ items t e items', Heard names items t → ¬ Addressed items e →
      assemble items e = some items' → Behind names items' (Sent.told names t e) :=
    fun _ _ _ _ h hok hstep hnodup => h.lags hok hstep hnodup
  have hkeep : ∀ items t e items', Behind names items t → assemble items e = some items' →
      Behind names items' (Sent.told names t e) :=
    fun _ _ _ _ h hstep hnodup => (h (nodup_of_assemble hnodup hstep)).step hstep hnodup
  have hcases := Transition.allSteps_or_run hgood hbad hkeep (heard_nil names) a.assembled
  rcases hcases with hall | hlags
  · exact hall
  · obtain ⟨-, k, call, heard, hcall, hkth, hless, -⟩ := hlags hnodup
    rw [hheard, foldl_hear_of_nodup (by simpa using hnodup), List.nil_append, hcall] at hkth
    obtain rfl := Option.some.inj hkth
    exact absurd hless (Nat.lt_irrefl _)

/-- The two readers agree where the refusals and the raw reasoning are equally long and every
fragment of arguments comes while its call is the last; with distinct call ids, only there. -/
theorem sameAnswer_iff (a : Streamed fromStr) (names : FunctionNameMap)
    (hids : names.toolUseIds = {}) :
    (SameBytes a.output ∧ Transition.AllSteps assemble Addressed [] a.sent →
      SameAnswer fromStr (a.streamReading names) (a.bodyReading names)) ∧
    (((calls names a.output).map ToldCall.id).Nodup →
      SameAnswer fromStr (a.streamReading names) (a.bodyReading names) →
      SameBytes a.output ∧ Transition.AllSteps assemble Addressed [] a.sent) := by
  have hsame := (a.stream_outcome names).same_iff (a.body_outcome names hids)
  rw [same_length_iff] at hsame
  refine ⟨?_, ?_⟩
  · rintro ⟨hbytes, haddressed⟩
    exact hsame.mpr ⟨hbytes, a.heard names haddressed⟩
  · intro hnodup hagree
    obtain ⟨hbytes, hheard⟩ := hsame.mp hagree
    exact ⟨hbytes, a.addressed names hnodup hheard⟩

end Agreement

section Call

def getCall (arguments : String) : Json :=
  .obj [("type", .str "function_call"), ("call_id", .str "c"), ("name", .str "f"),
    ("arguments", .str arguments)]

def callBody : Json :=
  .obj [("output", .arr [getCall "\x7b\x7d"]),
    ("usage", .obj [("input_tokens", .nat 3), ("output_tokens", .nat 2)])]

def callAdded : String :=
  "\x7b\"type\":\"response.output_item.added\",\"item\":\x7b\"type\":\"function_call\"," ++
  "\"call_id\":\"c\",\"name\":\"f\",\"arguments\":\"\"\x7d\x7d"

def callOpens : String :=
  "\x7b\"type\":\"response.function_call_arguments.delta\",\"delta\":\"\x7b\"\x7d"

def callCloses : String :=
  "\x7b\"type\":\"response.function_call_arguments.delta\",\"delta\":\"\x7d\"\x7d"

def callCompleted : String :=
  "\x7b\"type\":\"response.completed\",\"response\":\x7b\"output\":[\x7b\"type\":" ++
  "\"function_call\",\"call_id\":\"c\",\"name\":\"f\",\"arguments\":\"\x7b\x7d\"\x7d]," ++
  "\"usage\":\x7b\"input_tokens\":3,\"output_tokens\":2\x7d\x7d\x7d"

def addedPayload (item : Json) : Json :=
  .obj [("type", .str "response.output_item.added"), ("item", item)]

def completedPayload (body : Json) : Json :=
  .obj [("type", .str "response.completed"), ("response", body)]

def argumentsPayload (delta : String) : Json :=
  .obj [("type", .str "response.function_call_arguments.delta"), ("delta", .str delta)]

/-- serde_json on the payloads of a call and on its arguments. -/
def callFromStr (text : String) : Option Json :=
  if text = callAdded then some (addedPayload (getCall ""))
  else if text = callOpens then some (argumentsPayload "\x7b")
  else if text = callCloses then some (argumentsPayload "\x7d")
  else if text = callCompleted then some (completedPayload callBody)
  else if text = "\x7b\x7d" then some (.obj [])
  else none

theorem getCall_shows (arguments : String) :
    OutputItem.Shows (.call "c" "f" arguments) (getCall arguments) :=
  .call rfl rfl rfl rfl rfl

theorem callTexts_nodup : [callCompleted, callCloses, callOpens, callAdded].Nodup := by
  decide +kernel

theorem callFromStr_opens : callFromStr callOpens = some (argumentsPayload "\x7b") := by
  have hapart := callTexts_nodup
  simp only [List.nodup_cons, List.mem_cons, not_or] at hapart
  simp only [callFromStr, hapart, if_true, if_false]

theorem callFromStr_closes : callFromStr callCloses = some (argumentsPayload "\x7d") := by
  have hapart := callTexts_nodup
  simp only [List.nodup_cons, List.mem_cons, not_or] at hapart
  simp only [callFromStr, hapart, if_true, if_false]

theorem callFromStr_completed : callFromStr callCompleted = some (completedPayload callBody) := by
  have hapart := callTexts_nodup
  simp only [List.nodup_cons, List.mem_cons, not_or] at hapart
  simp only [callFromStr, hapart, if_true, if_false]

/-- A call whose arguments come in two fragments. -/
def callStreamed : Streamed callFromStr where
  output := [.call "c" "f" "\x7b\x7d"]
  body := callBody
  sent := [.itemAdded (.call "c" "f" ""), .argumentsDelta 0 "\x7b", .argumentsDelta 0 "\x7d"]
  payloads := [callAdded, callOpens, callCloses]
  terminal := callCompleted
  shown := ⟨_, rfl, .cons (getCall_shows _) .nil⟩
  assembled := rfl
  carried :=
    .cons ⟨_, if_pos rfl, .itemAdded rfl (getCall_shows "")⟩
      (.cons ⟨_, callFromStr_opens, .argumentsDelta 0 ⟨rfl, rfl⟩⟩
        (.cons ⟨_, callFromStr_closes, .argumentsDelta 0 ⟨rfl, rfl⟩⟩ .nil))
  ended := ⟨_, callFromStr_completed, rfl, .inl rfl⟩

/-- The call is read alike from its stream and from the whole body. -/
theorem call_same : SameBytes callStreamed.output ∧
    ((calls .identity callStreamed.output).map ToldCall.id).Nodup ∧
    SameAnswer callFromStr (callStreamed.streamReading .identity)
      (callStreamed.bodyReading .identity) := by
  have hbytes : SameBytes callStreamed.output := .inl rfl
  have haddressed : Transition.AllSteps assemble Addressed [] callStreamed.sent := by decide
  exact ⟨hbytes, by decide, (sameAnswer_iff callStreamed .identity rfl).1 ⟨hbytes, haddressed⟩⟩

end Call

section Refusal

def refusalItem (parts : List Json) : Json :=
  .obj [("type", .str "message"), ("role", .str "assistant"), ("content", .arr parts)]

def refusalPart (text : String) : Json := .obj [("type", .str "refusal"), ("refusal", .str text)]

def refusalBody : Json :=
  .obj [("output", .arr [refusalItem [refusalPart "No."]]),
    ("usage", .obj [("input_tokens", .nat 3), ("output_tokens", .nat 2)])]

def refusalAdded : String :=
  "\x7b\"type\":\"response.output_item.added\",\"item\":\x7b\"type\":\"message\"," ++
  "\"role\":\"assistant\",\"content\":[]\x7d\x7d"

def refusalOpens : String :=
  "\x7b\"type\":\"response.content_part.added\",\"part\":\x7b\"type\":\"refusal\"," ++
  "\"refusal\":\"\"\x7d\x7d"

def refusalWords : String := "\x7b\"type\":\"response.refusal.delta\",\"delta\":\"No.\"\x7d"

def refusalCompleted : String :=
  "\x7b\"type\":\"response.completed\",\"response\":\x7b\"output\":[\x7b\"type\":\"message\"," ++
  "\"role\":\"assistant\",\"content\":[\x7b\"type\":\"refusal\",\"refusal\":\"No.\"\x7d]\x7d]," ++
  "\"usage\":\x7b\"input_tokens\":3,\"output_tokens\":2\x7d\x7d\x7d"

def openedPayload : Json :=
  .obj [("type", .str "response.content_part.added"), ("part", refusalPart "")]

def wordsPayload : Json := .obj [("type", .str "response.refusal.delta"), ("delta", .str "No.")]

/-- serde_json on the payloads of a refusal. -/
def refusalFromStr (text : String) : Option Json :=
  if text = refusalAdded then some (addedPayload (refusalItem []))
  else if text = refusalOpens then some openedPayload
  else if text = refusalWords then some wordsPayload
  else if text = refusalCompleted then some (completedPayload refusalBody)
  else none

theorem refusalTexts_nodup :
    [refusalCompleted, refusalWords, refusalOpens, refusalAdded].Nodup := by
  decide +kernel

theorem refusalFromStr_opens : refusalFromStr refusalOpens = some openedPayload := by
  have hapart := refusalTexts_nodup
  simp only [List.nodup_cons, List.mem_cons, not_or] at hapart
  simp only [refusalFromStr, hapart, if_true, if_false]

theorem refusalFromStr_words : refusalFromStr refusalWords = some wordsPayload := by
  have hapart := refusalTexts_nodup
  simp only [List.nodup_cons, List.mem_cons, not_or] at hapart
  simp only [refusalFromStr, hapart, if_true, if_false]

theorem refusalFromStr_completed :
    refusalFromStr refusalCompleted = some (completedPayload refusalBody) := by
  have hapart := refusalTexts_nodup
  simp only [List.nodup_cons, List.mem_cons, not_or] at hapart
  simp only [refusalFromStr, hapart, if_true, if_false]

/-- A refusal in one fragment. -/
def refusalStreamed : Streamed refusalFromStr where
  output := [.message [.refusal "No."]]
  body := refusalBody
  sent := [.itemAdded (.message []), .partAdded 0 (.refusal ""), .refusalDelta 0 0 "No."]
  payloads := [refusalAdded, refusalOpens, refusalWords]
  terminal := refusalCompleted
  shown := ⟨_, rfl, .cons (.message rfl rfl (.cons (.refusal rfl rfl) .nil)) .nil⟩
  assembled := rfl
  carried :=
    .cons ⟨_, if_pos rfl, .itemAdded rfl (.message rfl rfl .nil)⟩
      (.cons ⟨_, refusalFromStr_opens, .partAdded 0 _ rfl⟩
        (.cons ⟨_, refusalFromStr_words, .refusalDelta 0 0 ⟨rfl, rfl⟩⟩ .nil))
  ended := ⟨_, refusalFromStr_completed, rfl, .inl rfl⟩

/-- Streamed, a refusal is read as an empty answer. -/
theorem refusal_read_as_empty :
    (refusalStreamed.streamReading .identity).acc.qualityGate refusalFromStr =
      some .emptyResponse ∧
    (refusalStreamed.bodyReading .identity).acc.qualityGate refusalFromStr = some .refusal ∧
    ¬ SameAnswer refusalFromStr (refusalStreamed.streamReading .identity)
      (refusalStreamed.bodyReading .identity) := by
  have hstream := refusalStreamed.stream_outcome .identity
  have hbody := refusalStreamed.body_outcome .identity rfl
  have hempty : (refusalStreamed.streamReading .identity).acc.qualityGate refusalFromStr =
      some .emptyResponse := by
    have htext : (refusalStreamed.streamReading .identity).acc.textLen = 0 := by
      rw [hstream.agrees.textLen]
      exact congrArg (fun n => min n u64Max) hstream.bytes
    have hcalls : (refusalStreamed.streamReading .identity).acc.toolCalls = 0 := by
      rw [hstream.agrees.toolCalls, hstream.calls]
      rfl
    simp [StreamAccumulator.qualityGate, hstream.parsed, htext, hcalls]
  have hrefused : (refusalStreamed.bodyReading .identity).acc.qualityGate refusalFromStr =
      some .refusal := by
    have htext : (refusalStreamed.bodyReading .identity).acc.textLen = 3 := by
      rw [hbody.agrees.textLen]
      exact congrArg (fun n => min n u64Max) hbody.bytes
    have hstop : (refusalStreamed.bodyReading .identity).acc.stopReason = some .refusal := by
      rw [hbody.agrees.stopReason, hbody.stop]
      rfl
    simp [StreamAccumulator.qualityGate, hbody.parsed, htext, hstop]
  refine ⟨hempty, hrefused, fun hsame => ?_⟩
  rw [hsame.gate, hrefused] at hempty
  cases hempty

end Refusal

end OpenAIGateway.Responses
