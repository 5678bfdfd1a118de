import OpenAIGateway.ChatParse
import OpenAIGateway.Lines
import OpenAIGateway.TerminalUsage

/-!
The usage a client is shown against the usage the ledger records, for a Chat
Completions upstream. The parser emits its stop with the finish reason and no
usage, and reports usage whenever a chunk carries it; the usage-only chunk of
this dialect comes after the finish. What the terminal frame shows is what
had been reported up to the finish, and nothing later reaches the client.
-/

set_option linter.all false

namespace OpenAIGateway.Chat

variable (fromStr : String → Option Json)

/-- The value a payload is read as. -/
def chunkOf (payload : String) : Option Json :=
  if payload = "[DONE]" then none else fromStr payload

/-- The usage a payload reports, nothing being no tokens. -/
def reportedIn (payload : String) : Usage := ((chunkOf fromStr payload).bind reported).getD {}

/-- The payload carries a finish reason. -/
def finishes (payload : String) : Bool :=
  (((chunkOf fromStr payload).bind firstChoice).bind
    (fun choice => nonEmptyStr choice["finish_reason"])).isSome

/-- All the usage a stretch of payloads reports. -/
def totalUsage (payloads : List String) : Usage :=
  payloads.foldl (fun u p => u.merge (reportedIn fromStr p)) {}

/-- No payload after the first one that finishes reports more than had been
reported up to it, and the counts add up within a `u64` where the dialect adds
them up. -/
def UsageKnownAtFinish (dialect : Dialect) (payloads : List String) : Prop :=
  ∀ pre p post, payloads = pre ++ p :: post → finishes fromStr p = true →
    (∀ q ∈ pre, finishes fromStr q = false) →
    (∀ q ∈ post, (reportedIn fromStr q).Le (totalUsage fromStr (pre ++ [p]))) ∧
      (dialect = .anthropicMessages ∨ (totalUsage fromStr payloads).sum < 2 ^ 64)

/-- An event with nothing to say about usage or the end of the answer. -/
def Inert (e : StreamEvent) : Prop :=
  e.usage? = none ∧ e.isStop = false ∧ Fold.errorMessage e = none

theorem parseCall_inert (acc : StreamAccumulator) (opened : List String) (call : Json) :
    ∀ e ∈ (parseCall acc opened call).2, Inert e := by
  intro e he
  rcases List.mem_append.mp he with hstart | hfragment
  · obtain ⟨id, -, rfl⟩ := List.mem_map.mp hstart
    exact ⟨rfl, rfl, rfl⟩
  · obtain ⟨args, -, rfl⟩ := List.mem_map.mp hfragment
    exact ⟨rfl, rfl, rfl⟩

theorem parseCalls_inert (acc : StreamAccumulator) (opened : List String) (calls : List Json) :
    ∀ e ∈ (parseCalls acc opened calls).2, Inert e := by
  induction calls generalizing opened with
  | nil => simp [parseCalls]
  | cons call rest ih =>
    intro e he
    rcases List.mem_append.mp he with hfirst | hrest
    · exact parseCall_inert acc opened call e hfirst
    · exact ih _ e hrest

theorem inert_append {xs ys : List StreamEvent} (hxs : ∀ e ∈ xs, Inert e)
    (hys : ∀ e ∈ ys, Inert e) : ∀ e ∈ xs ++ ys, Inert e := by
  intro e he
  rcases List.mem_append.mp he with he | he
  · exact hxs e he
  · exact hys e he

theorem inert_map {α : Type} (f : α → StreamEvent) (hf : ∀ a, Inert (f a)) (xs : List α) :
    ∀ e ∈ xs.map f, Inert e := by
  intro e he
  obtain ⟨a, -, rfl⟩ := List.mem_map.mp he
  exact hf a

/-- The events of a choice: content and calls, then the stop if it finishes. -/
theorem parseChoice_events (choice : Json) (acc : StreamAccumulator) :
    (parseChoice choice acc).1.usage = acc.usage ∧
      ∃ mid stops, (parseChoice choice acc).2 = mid ++ stops ∧ (∀ e ∈ mid, Inert e) ∧
        ((nonEmptyStr choice["finish_reason"] = none ∧ stops = []) ∨
          ((nonEmptyStr choice["finish_reason"]).isSome ∧ ∃ reason, stops = [.stop reason {}])) := by
  unfold parseChoice
  simp only
  generalize hnoted : (if (nonEmptyStr choice["delta"]["refusal"]).isSome then acc.noteRefusal
    else acc) = noted
  have husage : noted.usage = acc.usage := by
    rw [← hnoted]
    split <;> rfl
  have hcalls := parseCalls_inert noted [] (choice["delta"]["tool_calls"].asArray.getD [])
  generalize parseCalls noted [] (choice["delta"]["tool_calls"].asArray.getD []) = calls at hcalls
  have hmid := inert_append (inert_append (inert_append
    (inert_map .textDelta (fun _ => ⟨rfl, rfl, rfl⟩) (nonEmptyStr choice["delta"]["content"]).toList)
    (inert_map .textDelta (fun _ => ⟨rfl, rfl, rfl⟩) (nonEmptyStr choice["delta"]["refusal"]).toList))
    (inert_map .thinkingDelta (fun _ => ⟨rfl, rfl, rfl⟩)
      ((choice["delta"]["reasoning_content"].asStr.or choice["delta"]["reasoning"].asStr).filter
        (fun s => !s.isEmpty)).toList)) hcalls
  refine ⟨husage, ?_⟩
  cases hfinish : nonEmptyStr choice["finish_reason"] with
  | none => exact ⟨_, [], rfl, hmid, Or.inl ⟨rfl, rfl⟩⟩
  | some reason =>
    have hended := inert_map .toolUseEnd (fun _ => ⟨rfl, rfl, rfl⟩)
      (noted.toolIds ++ calls.1.filter (fun id => id ∉ noted.toolIds))
    refine ⟨_, [.stop (finishReason reason (noted.sawToolCall || !calls.1.isEmpty)
      noted.sawRefusal) {}], ?_, inert_append hmid hended, Or.inr ⟨rfl, _, rfl⟩⟩
    simp [finishEvents]

/-- The events of a payload: the usage it reports, events that say nothing of
it, and the stop if it finishes. -/
theorem parseEvent_events (payload : String) (acc : StreamAccumulator) :
    (parseEvent fromStr payload acc = none ∧ chunkOf fromStr payload = none) ∨
      ∃ acc' updates mid stops, parseEvent fromStr payload acc =
          some (acc', updates.map .usageUpdate ++ mid ++ stops) ∧
        acc'.usage = acc.usage ∧ (∀ e ∈ mid, Inert e) ∧
        updates = ((chunkOf fromStr payload).bind reported).toList ∧
        ((finishes fromStr payload = false ∧ stops = []) ∨
          (finishes fromStr payload = true ∧ ∃ reason, stops = [.stop reason {}])) := by
  unfold parseEvent finishes chunkOf
  by_cases hdone : payload = "[DONE]"
  · simp only [if_pos hdone]
    exact Or.inr ⟨acc, [], [], [], rfl, rfl, by simp, rfl, Or.inl ⟨rfl, rfl⟩⟩
  simp only [if_neg hdone]
  cases fromStr payload with
  | none => exact Or.inl ⟨rfl, rfl⟩
  | some v =>
    right
    simp only [Option.map_some, Option.bind_some]
    cases hchoice : firstChoice v with
    | none =>
      exact ⟨acc, (reported v).toList, [], [], by simp, rfl, by simp, rfl, Or.inl ⟨rfl, rfl⟩⟩
    | some choice =>
      obtain ⟨husage, mid, stops, hevents, hmid, hstops⟩ := parseChoice_events choice acc
      refine ⟨(parseChoice choice acc).1, (reported v).toList, mid, stops, ?_, husage, hmid, rfl, ?_⟩
      · simp [hevents]
      · rcases hstops with ⟨hnone, hnil⟩ | ⟨hsome, hstop⟩
        · exact Or.inl ⟨by simp [hnone], hnil⟩
        · exact Or.inr ⟨by simpa using hsome, hstop⟩

section Events

variable {dialect : Dialect} {f : Fold}

/-- A stream whose answer has not ended: the renderer's usage is the
accumulator's, and no terminal frame is out. -/
structure Running (dialect : Dialect) (f : Fold) : Prop where
  dialect_eq : f.render.dialect = some dialect
  unfinished : f.render.finished = false
  usage_eq : f.render.usage = f.acc.usage
  out_eq : terminalUsages dialect f.out = []

/-- A stream whose terminal frame went out with the usage `u`. -/
structure Stopped (dialect : Dialect) (f : Fold) (u : Usage) : Prop where
  dialect_eq : f.render.dialect = some dialect
  finished : f.render.finished = true
  out_eq : terminalUsages dialect f.out = [renderedUsage dialect u]

theorem event_running (h : Running dialect f) (e : StreamEvent) (hstop : e.isStop = false)
    (herror : Fold.errorMessage e = none) : Running dialect (f.event fromStr e) := by
  obtain ⟨hdialect, hrenders⟩ := f.render.render_renders fromStr dialect h.dialect_eq e herror
  refine ⟨hdialect, ?_, ?_, ?_⟩
  · exact hrenders.finished_eq.trans (by rw [h.unfinished, hstop]; rfl)
  · refine (hrenders.usage_eq h.unfinished).trans ?_
    rw [h.usage_eq]
    exact (f.acc.observe_usage e).symm
  · simp only [Fold.event]
    rw [terminalUsages_append, h.out_eq, hrenders.frames_eq, hstop]
    rfl

theorem event_stop (h : Running dialect f) (reason : StopReason) (usage : Usage) :
    Stopped dialect (f.event fromStr (.stop reason usage)) (f.acc.usage.merge usage) := by
  obtain ⟨hdialect, hrenders⟩ :=
    f.render.render_renders fromStr dialect h.dialect_eq (.stop reason usage) rfl
  refine ⟨hdialect, ?_, ?_⟩
  · exact hrenders.finished_eq.trans (by rw [h.unfinished]; rfl)
  · simp only [Fold.event]
    rw [terminalUsages_append, h.out_eq, hrenders.frames_eq, hrenders.usage_eq h.unfinished,
      h.unfinished, h.usage_eq]
    rfl

theorem event_stopped {u : Usage} (h : Stopped dialect f u) (e : StreamEvent)
    (herror : Fold.errorMessage e = none) : Stopped dialect (f.event fromStr e) u := by
  obtain ⟨hdialect, hrenders⟩ := f.render.render_renders fromStr dialect h.dialect_eq e herror
  refine ⟨hdialect, ?_, ?_⟩
  · exact hrenders.finished_eq.trans (by rw [h.finished]; rfl)
  · simp only [Fold.event]
    rw [terminalUsages_append, h.out_eq, hrenders.frames_eq, h.finished, Bool.not_true,
      Bool.and_false]
    rfl

theorem events_running (h : Running dialect f) (events : List StreamEvent)
    (hevents : ∀ e ∈ events, e.isStop = false ∧ Fold.errorMessage e = none) :
    Running dialect (events.foldl (Fold.event fromStr) f) := by
  induction events generalizing f with
  | nil => exact h
  | cons e rest ih =>
    obtain ⟨hstop, herror⟩ := hevents e (by simp)
    exact ih (event_running fromStr h e hstop herror) (fun e' he' => hevents e' (by simp [he']))

theorem events_stopped {u : Usage} (h : Stopped dialect f u) (events : List StreamEvent)
    (hevents : ∀ e ∈ events, Fold.errorMessage e = none) :
    Stopped dialect (events.foldl (Fold.event fromStr) f) u := by
  induction events generalizing f with
  | nil => exact h
  | cons e rest ih =>
    exact ih (event_stopped fromStr h e (hevents e (by simp)))
      (fun e' he' => hevents e' (by simp [he']))

theorem events_usage (f : Fold) (events : List StreamEvent) :
    (events.foldl (Fold.event fromStr) f).acc.usage =
      events.foldl (fun u e => u.merge (e.usage?.getD {})) f.acc.usage := by
  induction events generalizing f with
  | nil => rfl
  | cons e rest ih =>
    rw [List.foldl_cons, List.foldl_cons, ih]
    exact congrArg (fun u => List.foldl _ u rest) (f.acc.observe_usage e)

/-- Events that report nothing leave the usage alone. -/
theorem foldl_usage_of_silent (events : List StreamEvent)
    (hevents : ∀ e ∈ events, e.usage?.getD {} = {}) (u : Usage) :
    events.foldl (fun u e => u.merge (e.usage?.getD {})) u = u := by
  rw [Usage.foldl_merge_eq_iff]
  intro e he
  rw [hevents e he]
  exact ⟨Nat.zero_le _, Nat.zero_le _, Nat.zero_le _, Nat.zero_le _⟩

/-- A payload moves the recorded usage by what it reports. -/
theorem payload_usage (f : Fold) (p : String) :
    (f.payload fromStr (parseEvent fromStr) p).acc.usage =
      f.acc.usage.merge (reportedIn fromStr p) := by
  unfold Fold.payload reportedIn
  rcases parseEvent_events fromStr p f.acc with
    ⟨hparse, hchunk⟩ | ⟨acc', updates, mid, stops, hparse, husage, hmid, hupdates, hstops⟩
  · rw [hparse, hchunk]
    exact f.acc.usage.merge_default.symm
  · have hsilent : ∀ e ∈ mid ++ stops, e.usage?.getD {} = {} := by
      intro e he
      rcases List.mem_append.mp he with hmem | hmem
      · rw [(hmid e hmem).1]
        rfl
      · rcases hstops with ⟨-, hnil⟩ | ⟨-, reason, hstop⟩
        · rw [hnil] at hmem
          cases hmem
        · rw [hstop, List.mem_singleton] at hmem
          rw [hmem]
          rfl
    rw [hparse]
    simp only
    rw [events_usage, List.append_assoc, List.foldl_append]
    simp only [husage]
    rw [foldl_usage_of_silent _ hsilent, hupdates]
    cases (chunkOf fromStr p).bind reported with
    | none => exact f.acc.usage.merge_default.symm
    | some u => rfl

theorem payload_running (h : Running dialect f) (p : String) (hp : finishes fromStr p = false) :
    Running dialect (f.payload fromStr (parseEvent fromStr) p) := by
  unfold Fold.payload
  rcases parseEvent_events fromStr p f.acc with
    ⟨hparse, -⟩ | ⟨acc', updates, mid, stops, hparse, husage, hmid, -, hstops⟩
  · rw [hparse]
    exact h
  · rw [hparse]
    have hnil : stops = [] := by
      rcases hstops with ⟨-, hnil⟩ | ⟨hfinish, -⟩
      · exact hnil
      · rw [hp] at hfinish
        cases hfinish
    have hstart : Running dialect { f with acc := acc' } :=
      ⟨h.dialect_eq, h.unfinished, h.usage_eq.trans husage.symm, h.out_eq⟩
    refine events_running fromStr hstart _ ?_
    intro e he
    rw [hnil, List.append_nil, List.mem_append] at he
    rcases he with hupdate | hinner
    · obtain ⟨u, -, rfl⟩ := List.mem_map.mp hupdate
      exact ⟨rfl, rfl⟩
    · exact (hmid e hinner).2

theorem payload_finishes (h : Running dialect f) (p : String) (hp : finishes fromStr p = true) :
    Stopped dialect (f.payload fromStr (parseEvent fromStr) p)
      (f.acc.usage.merge (reportedIn fromStr p)) := by
  have husage' := payload_usage fromStr f p
  unfold Fold.payload at husage' ⊢
  rcases parseEvent_events fromStr p f.acc with
    ⟨-, hchunk⟩ | ⟨acc', updates, mid, stops, hparse, husage, hmid, -, hstops⟩
  · simp [finishes, hchunk] at hp
  · rw [hparse] at husage' ⊢
    obtain ⟨reason, rfl⟩ : ∃ reason, stops = [.stop reason {}] := by
      rcases hstops with ⟨hfinish, -⟩ | ⟨-, hstop⟩
      · rw [hp] at hfinish
        cases hfinish
      · exact hstop
    have hstart : Running dialect { f with acc := acc' } :=
      ⟨h.dialect_eq, h.unfinished, h.usage_eq.trans husage.symm, h.out_eq⟩
    have hbody := events_running fromStr hstart (updates.map .usageUpdate ++ mid) (by
      intro e he
      rcases List.mem_append.mp he with hupdate | hinner
      · obtain ⟨u, -, rfl⟩ := List.mem_map.mp hupdate
        exact ⟨rfl, rfl⟩
      · exact (hmid e hinner).2)
    have hend := event_stop fromStr hbody reason {}
    simp only [List.foldl_append, List.foldl_cons, List.foldl_nil] at husage' hend ⊢
    rw [← husage']
    exact hend

theorem payload_stopped {u : Usage} (h : Stopped dialect f u) (p : String) :
    Stopped dialect (f.payload fromStr (parseEvent fromStr) p) u := by
  unfold Fold.payload
  rcases parseEvent_events fromStr p f.acc with
    ⟨hparse, -⟩ | ⟨acc', updates, mid, stops, hparse, -, hmid, -, hstops⟩
  · rw [hparse]
    exact h
  · rw [hparse]
    have hstart : Stopped dialect { f with acc := acc' } u := ⟨h.dialect_eq, h.finished, h.out_eq⟩
    refine events_stopped fromStr hstart _ ?_
    intro e he
    rw [List.append_assoc, List.mem_append, List.mem_append] at he
    rcases he with hupdate | hinner | hstop
    · obtain ⟨u, -, rfl⟩ := List.mem_map.mp hupdate
      rfl
    · exact (hmid e hinner).2.2
    · rcases hstops with ⟨-, hnil⟩ | ⟨-, reason, hlast⟩
      · rw [hnil] at hstop
        cases hstop
      · rw [hlast, List.mem_singleton] at hstop
        rw [hstop]
        rfl

end Events

section Streams

variable (names : FunctionNameMap) (dialect : Dialect) (requestId model : String)

/-- A whole stream, from a fresh accumulator and a fresh renderer. -/
def stream (payloads : List String) : Fold :=
  (Fold.start names dialect requestId model).payloads fromStr (parseEvent fromStr) payloads

theorem payloads_running {f : Fold} (h : Running dialect f) (payloads : List String)
    (hnone : ∀ p ∈ payloads, finishes fromStr p = false) :
    Running dialect (f.payloads fromStr (parseEvent fromStr) payloads) := by
  induction payloads generalizing f with
  | nil => exact h
  | cons p rest ih =>
    exact ih (payload_running fromStr h p (hnone p (by simp)))
      (fun q hq => hnone q (by simp [hq]))

theorem payloads_stopped {f : Fold} {u : Usage} (h : Stopped dialect f u)
    (payloads : List String) :
    Stopped dialect (f.payloads fromStr (parseEvent fromStr) payloads) u := by
  induction payloads generalizing f with
  | nil => exact h
  | cons p rest ih => exact ih (payload_stopped fromStr h p)

theorem payloads_usage (f : Fold) (payloads : List String) :
    (f.payloads fromStr (parseEvent fromStr) payloads).acc.usage =
      payloads.foldl (fun u p => u.merge (reportedIn fromStr p)) f.acc.usage := by
  induction payloads generalizing f with
  | nil => rfl
  | cons p rest ih =>
    rw [List.foldl_cons, ← payload_usage]
    exact ih (f.payload fromStr (parseEvent fromStr) p)

theorem start_running : Running dialect (Fold.start names dialect requestId model) := by
  obtain ⟨hdialect, husage, hfinished⟩ := Renderer.forDialect_fresh dialect requestId model
  exact ⟨hdialect, hfinished, husage, rfl⟩

theorem stream_usage (payloads : List String) :
    (stream fromStr names dialect requestId model payloads).acc.usage =
      totalUsage fromStr payloads :=
  payloads_usage fromStr _ payloads

/-- A stream that never finishes shows its client no terminal frame. -/
theorem stream_unfinished (payloads : List String)
    (hnone : ∀ p ∈ payloads, finishes fromStr p = false) :
    terminalUsages dialect (stream fromStr names dialect requestId model payloads).out = [] :=
  (payloads_running fromStr dialect (start_running names dialect requestId model) payloads
    hnone).out_eq

/-- One that does shows the usage reported up to its first finish. -/
theorem stream_finished (pre : List String) (p : String) (post : List String)
    (hpre : ∀ q ∈ pre, finishes fromStr q = false) (hp : finishes fromStr p = true) :
    terminalUsages dialect
        (stream fromStr names dialect requestId model (pre ++ p :: post)).out =
      [renderedUsage dialect (totalUsage fromStr (pre ++ [p]))] := by
  have hrunning := payloads_running fromStr dialect (start_running names dialect requestId model)
    pre hpre
  have hstopped := payloads_stopped fromStr dialect (payload_finishes fromStr hrunning p hp) post
  have husage := payloads_usage fromStr (Fold.start names dialect requestId model) pre
  rw [husage] at hstopped
  unfold stream Fold.payloads totalUsage
  rw [List.foldl_append, List.foldl_append]
  exact hstopped.out_eq

theorem usageKnownAtFinish_split_iff (pre : List String) (p : String) (post : List String)
    (hpre : ∀ q ∈ pre, finishes fromStr q = false) (hp : finishes fromStr p = true) :
    UsageKnownAtFinish fromStr dialect (pre ++ p :: post) ↔
      (∀ q ∈ post, (reportedIn fromStr q).Le (totalUsage fromStr (pre ++ [p]))) ∧
        (dialect = .anthropicMessages ∨
          (totalUsage fromStr (pre ++ p :: post)).sum < 2 ^ 64) := by
  constructor
  · intro h
    exact h pre p post rfl hp hpre
  · intro h pre' p' post' heq hp' hpre'
    obtain ⟨rfl, rfl, rfl⟩ := Lines.firstSplit_unique (P := fun q => finishes fromStr q = true)
      heq (by simpa using hpre) hp (by simpa using hpre') hp'
    exact h

theorem mem_terminalUsages_iff (frames : List Frame) (P : Json → Prop) :
    (∀ frame ∈ frames, ∀ u, terminalUsage dialect frame = some u → P u) ↔
      ∀ u ∈ terminalUsages dialect frames, P u := by
  simp only [terminalUsages, List.mem_filterMap]
  constructor
  · rintro h u ⟨frame, hframe, hu⟩
    exact h frame hframe u hu
  · intro h frame hframe u hu
    exact h u ⟨frame, hframe, hu⟩

/-- Every terminal frame shows exactly the usage the ledger records, or some
payload after the finish reported more, or a sum left the machine word. -/
theorem terminalUsage_eq_recorded_iff (payloads : List String) :
    (∀ frame ∈ (stream fromStr names dialect requestId model payloads).out,
        ∀ u, terminalUsage dialect frame = some u →
          u = exactUsage dialect (stream fromStr names dialect requestId model payloads).acc.usage) ↔
      UsageKnownAtFinish fromStr dialect payloads := by
  rw [mem_terminalUsages_iff, stream_usage]
  cases hfind : payloads.find? (finishes fromStr) with
  | none =>
    have hnone : ∀ p ∈ payloads, finishes fromStr p = false := by simpa using hfind
    rw [stream_unfinished fromStr names dialect requestId model payloads hnone]
    refine iff_of_true (by simp) ?_
    intro pre p post heq hp
    have := hnone p (by simp [heq])
    rw [hp] at this
    cases this
  | some p =>
    obtain ⟨hp, pre, post, rfl, hpre⟩ := List.find?_eq_some_iff_append.mp hfind
    have hpre' : ∀ q ∈ pre, finishes fromStr q = false := by simpa using hpre
    have hlater : totalUsage fromStr (pre ++ p :: post) =
        post.foldl (fun u q => u.merge (reportedIn fromStr q)) (totalUsage fromStr (pre ++ [p])) := by
      unfold totalUsage
      rw [← List.foldl_append, List.append_assoc]
      rfl
    have hle := Usage.le_foldl_merge (reportedIn fromStr) post (totalUsage fromStr (pre ++ [p]))
    rw [← hlater] at hle
    rw [stream_finished fromStr names dialect requestId model pre p post hpre' hp,
      usageKnownAtFinish_split_iff fromStr dialect pre p post hpre' hp, List.forall_mem_singleton,
      renderedUsage_eq_exactUsage_iff dialect hle, ← Usage.foldl_merge_eq_iff, ← hlater,
      eq_comm (a := totalUsage fromStr (pre ++ [p]))]

end Streams

/-- The chunk with the finish reason, and the usage-only chunk after it. -/
def finishChunk : String :=
  "\x7b\"choices\":[\x7b\"delta\":\x7b\x7d,\"finish_reason\":\"stop\"\x7d]\x7d"

def usageChunk : String :=
  "\x7b\"choices\":[],\"usage\":\x7b\"prompt_tokens\":7,\"completion_tokens\":2\x7d\x7d"

/-- What serde_json reads those two texts as. -/
def readChunk (text : String) : Option Json :=
  if text = finishChunk then
    some (.obj [("choices", .arr [.obj [("delta", .obj []), ("finish_reason", .str "stop")]])])
  else if text = usageChunk then
    some (.obj [("choices", .arr []), ("usage",
      .obj [("prompt_tokens", .nat 7), ("completion_tokens", .nat 2)])])
  else none

/-- An Anthropic client is told no tokens were used; the ledger records nine. -/
theorem usage_after_finish_not_shown :
    ∃ frame ∈ (stream readChunk {} .anthropicMessages "1" "m"
        [finishChunk, usageChunk, "[DONE]"]).out,
      ∃ u, terminalUsage .anthropicMessages frame = some u ∧
        u ≠ exactUsage .anthropicMessages (stream readChunk {} .anthropicMessages "1" "m"
          [finishChunk, usageChunk, "[DONE]"]).acc.usage := by
  have hout : (stream readChunk {} .anthropicMessages "1" "m"
      [finishChunk, usageChunk, "[DONE]"]).out =
      [Anthropic.messageStart (.new "1" "m"), Anthropic.messageDelta .endTurn {},
        Anthropic.messageStop] := rfl
  have hrecorded : (stream readChunk {} .anthropicMessages "1" "m"
      [finishChunk, usageChunk, "[DONE]"]).acc.usage =
      { inputTokens := 7, outputTokens := 2 } := rfl
  rw [hout, hrecorded]
  refine ⟨Anthropic.messageDelta .endTurn {}, by simp, Anthropic.usageJson {}, rfl, ?_⟩
  simp [exactUsage, Anthropic.usageJson, Json.nat_inj]

end OpenAIGateway.Chat
