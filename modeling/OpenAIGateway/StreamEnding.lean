import OpenAIGateway.ClientUsage
import OpenAIGateway.StreamPump

/-!
How a pumped stream ends. The pump's own last word is one at most: the sentinel
of a translated Chat Completions stream that was complete, or the error of one
that was not and had not said so itself. The frame that ends an answer in the
client's dialect is the renderer's: it goes out with the first stop.
-/

set_option linter.all false

namespace OpenAIGateway

/-- The frame a dialect's answer ends with. -/
def endsAnswer (dialect : Dialect) (f : Frame) : Bool :=
  match dialect with
  | .anthropicMessages => f.event == some "message_stop"
  | dialect => (terminalUsage dialect f).isSome

def endings (dialect : Dialect) (frames : List Frame) : ℕ := frames.countP (endsAnswer dialect)

theorem endings_append (dialect : Dialect) (xs ys : List Frame) :
    endings dialect (xs ++ ys) = endings dialect xs + endings dialect ys :=
  List.countP_append

theorem endings_eq_terminalUsages {dialect : Dialect} (h : dialect ≠ .anthropicMessages)
    (frames : List Frame) : endings dialect frames = (terminalUsages dialect frames).length := by
  unfold endings terminalUsages
  rw [List.length_filterMap_eq_countP]
  cases dialect with
  | anthropicMessages => exact absurd rfl h
  | _ => rfl

section Anthropic

variable (st : Anthropic.RenderState)

theorem endings_closeTools : endings .anthropicMessages st.closeTools.2 = 0 := by
  unfold endings Anthropic.RenderState.closeTools
  rw [List.countP_eq_zero]
  intro f hf
  obtain ⟨tool, -, rfl⟩ := List.mem_map.mp hf
  exact Bool.false_ne_true

theorem endings_ensureStarted : endings .anthropicMessages st.ensureStarted.2 = 0 := by
  unfold Anthropic.RenderState.ensureStarted
  split <;> rfl

theorem endings_closeText : endings .anthropicMessages st.closeText.2 = 0 := by
  unfold Anthropic.RenderState.closeText
  split <;> rfl

theorem endings_closeTool (id : String) : endings .anthropicMessages (st.closeTool id).2 = 0 := by
  unfold Anthropic.RenderState.closeTool
  split <;> rfl

theorem endings_renderText (text : String) (thinking : Bool) :
    endings .anthropicMessages (Anthropic.renderText st text thinking).2 = 0 := by
  have hdelta : ∀ index, endings .anthropicMessages
      [Anthropic.blockDelta index (Anthropic.textDelta thinking text)] = 0 := fun _ => rfl
  have hstart : ∀ index, endings .anthropicMessages
      [Anthropic.blockStart index (Anthropic.emptyBlock thinking)] = 0 := fun _ => rfl
  have hnil : endings .anthropicMessages [] = 0 := rfl
  unfold Anthropic.renderText
  simp only
  split
  · simp only [endings_append, endings_ensureStarted, endings_closeTools, hdelta, hstart]
  · simp only [endings_append, endings_ensureStarted, endings_closeTools, hdelta, hnil]

/-- A Messages renderer ends the answer with the first stop, and then alone. -/
theorem anthropic_endings (e : StreamEvent) :
    endings .anthropicMessages (Anthropic.renderEvent e st).2 =
      (e.isStop && !st.finished).toNat := by
  cases e with
  | start model usage => exact endings_ensureStarted _
  | textDelta text => exact endings_renderText st text false
  | thinkingDelta text => exact endings_renderText st text true
  | toolUseStart id name =>
    simp only [Anthropic.renderEvent, endings_append, endings_ensureStarted, endings_closeText]
    rfl
  | toolUseDelta id partialJson =>
    simp only [Anthropic.renderEvent]
    split <;> rfl
  | toolUseEnd id => exact endings_closeTool st id
  | usageUpdate usage => rfl
  | stop reason usage =>
    cases hfinished : st.finished with
    | true =>
      simp only [Anthropic.renderEvent, hfinished, if_true]
      rfl
    | false =>
      simp only [Anthropic.renderEvent, hfinished, Bool.false_eq_true, if_false, endings_append,
        endings_ensureStarted, endings_closeText, endings_closeTools]
      rfl
  | error message => rfl

end Anthropic

/-- What ends an answer: a stop, and for a Responses client an error too. -/
def ends (dialect : Dialect) (stopped failed : Bool) : Bool :=
  stopped || (dialect == .openAIResponses && failed)

theorem responses_failure (st : Responses.RenderState) (message : String) :
    (Responses.renderFailure st message).1.finished = true ∧
      endings .openAIResponses (Responses.renderFailure st message).2 + st.finished.toNat = 1 := by
  unfold Responses.renderFailure
  cases hfinished : st.finished with
  | true => exact ⟨hfinished, rfl⟩
  | false =>
    simp only [Bool.false_eq_true, if_false]
    generalize hst₀ : ({ st with finished := true } : Responses.RenderState) = st₀
    obtain ⟨-, hfin, hframes⟩ := responses_closing_keeps st₀
    refine ⟨hfin.trans (by rw [← hst₀]), ?_⟩
    rw [endings_append, endings_eq_terminalUsages (by decide), hframes]
    rfl

/-- Every dialect alike: an answer's last frame is rendered once, when the renderer finishes. -/
theorem render_endings (fromStr : String → Option Json) (r : Renderer) {dialect : Dialect}
    (hr : r.dialect = some dialect) (e : StreamEvent) :
    (r.render fromStr e).1.dialect = some dialect ∧
      (r.render fromStr e).1.finished =
        (r.finished || ends dialect e.isStop (Fold.errorMessage e).isSome) ∧
      endings dialect (r.render fromStr e).2 + r.finished.toNat =
        (r.render fromStr e).1.finished.toNat := by
  cases herror : Fold.errorMessage e with
  | none =>
    obtain ⟨hdialect, hrenders⟩ := r.render_renders fromStr dialect hr e herror
    have hfinished : (r.render fromStr e).1.finished =
        (r.finished || ends dialect e.isStop false) := by
      rw [hrenders.finished_eq]
      simp [ends]
    refine ⟨hdialect, hfinished, ?_⟩
    have hcount : endings dialect (r.render fromStr e).2 = (e.isStop && !r.finished).toNat := by
      by_cases hanthropic : dialect = .anthropicMessages
      · cases r with
        | anthropic st =>
          rw [hanthropic]
          exact anthropic_endings st e
        | _ =>
          rw [hanthropic] at hr
          cases hr
      · rw [endings_eq_terminalUsages hanthropic, hrenders.frames_eq]
        cases e.isStop <;> cases r.finished <;> rfl
    rw [hcount, hrenders.finished_eq]
    cases e.isStop <;> cases r.finished <;> rfl
  | some message =>
    cases e with
    | error message =>
      cases r with
      | none => cases hr
      | responses st =>
        cases hr
        obtain ⟨hfinished, hcount⟩ := responses_failure st message
        have hrendered : (Renderer.responses st).render fromStr (.error message) =
            (.responses (Responses.renderFailure st message).1,
              (Responses.renderFailure st message).2) := rfl
        rw [hrendered]
        refine ⟨rfl, ?_, ?_⟩
        · change (Responses.renderFailure st message).1.finished = _
          rw [hfinished]
          exact (Bool.or_true _).symm
        · change _ + st.finished.toNat = (Responses.renderFailure st message).1.finished.toNat
          rw [hcount, hfinished]
          rfl
      | chatCompletions st =>
        cases hr
        exact ⟨rfl, (Bool.or_false _).symm, Nat.zero_add _⟩
      | anthropic st =>
        cases hr
        exact ⟨rfl, (Bool.or_false _).symm, Nat.zero_add _⟩
      | gemini st =>
        cases hr
        exact ⟨rfl, (Bool.or_false _).symm, Nat.zero_add _⟩
    | _ => cases herror

namespace StreamPump

open CollectStream (Deadlines)

section Fold

variable (fromStr : String → Option Json) (parse : ParseEvent) {dialect : Dialect}

theorem isSome_stopReason_observe (acc : StreamAccumulator) (e : StreamEvent) :
    (acc.observe e).stopReason.isSome = (acc.stopReason.isSome || e.isStop) := by
  cases e with
  | stop reason usage => exact (Bool.or_true _).symm
  | _ => exact (Bool.or_false _).symm

/-- The renderer has finished exactly when something has ended the answer. -/
structure Follows (dialect : Dialect) (f : Fold) : Prop where
  dialect_eq : f.render.dialect = some dialect
  finished_eq : f.render.finished = ends dialect f.acc.stopReason.isSome f.inBand.isSome

/-- One fold goes on from another, rendering the answer's end when it comes. -/
structure GoesOn (dialect : Dialect) (f f' : Fold) : Prop where
  follows : Follows dialect f'
  counted : endings dialect f'.out + f.render.finished.toNat =
    endings dialect f.out + f'.render.finished.toNat

theorem GoesOn.trans {f f' f'' : Fold} (h : GoesOn dialect f f') (h' : GoesOn dialect f' f'') :
    GoesOn dialect f f'' := by
  have hcounted := h.counted
  have hcounted' := h'.counted
  exact ⟨h'.follows, by omega⟩

theorem event_goesOn {f : Fold} (h : Follows dialect f) (e : StreamEvent) :
    GoesOn dialect f (f.event fromStr e) := by
  obtain ⟨hdialect, hfinished, hcount⟩ := render_endings fromStr f.render h.dialect_eq e
  have hinBand : (f.inBand.or (Fold.errorMessage e)).isSome =
      (f.inBand.isSome || (Fold.errorMessage e).isSome) := by
    cases f.inBand <;> rfl
  refine ⟨⟨hdialect, ?_⟩, ?_⟩
  · change (f.render.render fromStr e).1.finished = ends dialect
      (f.acc.observe e).stopReason.isSome (f.inBand.or (Fold.errorMessage e)).isSome
    rw [hfinished, h.finished_eq, isSome_stopReason_observe, hinBand]
    unfold ends
    cases f.acc.stopReason.isSome <;> cases e.isStop <;> cases f.inBand.isSome <;>
      cases (Fold.errorMessage e).isSome <;> cases (dialect == Dialect.openAIResponses) <;> rfl
  · change endings dialect (f.out ++ (f.render.render fromStr e).2) + _ =
      _ + (f.render.render fromStr e).1.finished.toNat
    rw [endings_append]
    omega

theorem events_goesOn {f : Fold} (h : Follows dialect f) (events : List StreamEvent) :
    GoesOn dialect f (events.foldl (Fold.event fromStr) f) := by
  induction events generalizing f with
  | nil => exact ⟨h, rfl⟩
  | cons e events ih =>
    have hevent := event_goesOn fromStr h e
    exact hevent.trans (ih hevent.follows)

variable {parse}

theorem payload_goesOn (hparse : ∀ payload acc acc' events,
    parse payload acc = some (acc', events) → acc'.stopReason = acc.stopReason) {f : Fold}
    (h : Follows dialect f) (payload : String) :
    GoesOn dialect f (f.payload fromStr parse payload) := by
  unfold Fold.payload
  cases hevents : parse payload f.acc with
  | none => exact ⟨h, rfl⟩
  | some parsed =>
    obtain ⟨acc, events⟩ := parsed
    have hnoted : Follows dialect { f with acc := acc } :=
      ⟨h.dialect_eq, by rw [hparse payload f.acc acc events hevents]; exact h.finished_eq⟩
    have hon := events_goesOn fromStr hnoted events
    exact ⟨hon.follows, hon.counted⟩

theorem payloads_goesOn (hparse : ∀ payload acc acc' events,
    parse payload acc = some (acc', events) → acc'.stopReason = acc.stopReason) {f : Fold}
    (h : Follows dialect f) (payloads : List String) :
    GoesOn dialect f (f.payloads fromStr parse payloads) := by
  unfold Fold.payloads
  induction payloads generalizing f with
  | nil => exact ⟨h, rfl⟩
  | cons payload payloads ih =>
    have hpayload := payload_goesOn fromStr hparse h payload
    exact hpayload.trans (ih hpayload.follows)

end Fold

/-- The frames a piece sent was rendered to. -/
def Sent.rendered : Sent → List Frame
  | frames fs => fs
  | _ => []

/-- How often the client has been sent the end of the answer. -/
def endingsSent (dialect : Dialect) (sent : List Sent) : ℕ :=
  endings dialect (sent.flatMap Sent.rendered)

theorem endingsSent_append (dialect : Dialect) (xs ys : List Sent) :
    endingsSent dialect (xs ++ ys) = endingsSent dialect xs + endingsSent dialect ys := by
  unfold endingsSent
  rw [List.flatMap_append, endings_append]

/-- What holds of a pump while it reads: it has had no last word, its buffer holds no complete
frame, and a client that is there has been sent the answer's end if the renderer is done. -/
structure Reading (adapter : Adapter) (egress : Egress) (p : Pump) : Prop where
  open_ : ∀ s ∈ p.sent, s.closes = false
  rest : p.pending = [] ∨ adapter.takePayloads p.pending = (p.pending, [])
  follows : ∀ dialect ∈ egress.rendered, Follows dialect p.fold
  counted : ∀ dialect ∈ egress.rendered,
    endingsSent dialect p.sent ≤ p.fold.render.finished.toNat ∧
    (p.clientGone = false → endingsSent dialect p.sent = p.fold.render.finished.toNat)

section Steps

variable (fromStr : String → Option Json) {adapter : Adapter} (deadlines : Deadlines)
  {egress : Egress} {p : Pump}

/-- What is sent that renders nothing and closes nothing changes nothing. -/
theorem Reading.offer (h : Reading adapter egress p) (delivery : Delivery) {s : Sent}
    (hcloses : s.closes = false) (hrendered : s.rendered = []) :
    Reading adapter egress (p.offer delivery s) := by
  cases delivery with
  | taken =>
    refine ⟨?_, h.rest, h.follows, fun dialect hd => ?_⟩
    · intro other hother
      rcases List.mem_append.mp hother with hold | hnew
      · exact h.open_ other hold
      · rw [List.mem_singleton.mp hnew, hcloses]
    · have hnone : endingsSent dialect [s] = 0 := by
        unfold endingsSent
        rw [List.flatMap_singleton, hrendered]
        rfl
      change endingsSent dialect (p.sent ++ [s]) ≤ _ ∧
        (p.clientGone = false → endingsSent dialect (p.sent ++ [s]) = _)
      rw [endingsSent_append, hnone]
      exact h.counted dialect hd
  | _ => exact ⟨h.open_, h.rest, h.follows, fun dialect hd =>
      ⟨(h.counted dialect hd).1, fun hgone => by cases hgone⟩⟩

theorem Reading.tick (h : Reading adapter egress p) (delivery : Delivery) :
    Reading adapter egress (p.tick delivery) := by
  unfold Pump.tick
  split
  · exact h.offer delivery rfl rfl
  · exact h

theorem Reading.ticks (h : Reading adapter egress p) (ticks : List Delivery) :
    Reading adapter egress (ticks.foldl Pump.tick p) := by
  induction ticks generalizing p with
  | nil => exact h
  | cons delivery ticks ih => exact ih (h.tick delivery)

/-- A read has been folded, and what it rendered to is still to be sent. -/
structure Folded (adapter : Adapter) (egress : Egress) (p : Pump) : Prop where
  open_ : ∀ s ∈ p.sent, s.closes = false
  rest : p.pending = [] ∨ adapter.takePayloads p.pending = (p.pending, [])
  follows : ∀ dialect ∈ egress.rendered, Follows dialect p.fold
  counted : ∀ dialect ∈ egress.rendered,
    endingsSent dialect p.sent + endings dialect p.fold.out ≤ p.fold.render.finished.toNat ∧
    (p.clientGone = false → endingsSent dialect p.sent + endings dialect p.fold.out =
      p.fold.render.finished.toNat)

theorem Reading.take (h : Reading adapter egress p) (chunk : List UInt8) :
    Folded adapter egress (p.take fromStr adapter chunk) := by
  have hon : ∀ dialect ∈ egress.rendered,
      GoesOn dialect { p.fold with sawContent := false, out := [] }
        (p.take fromStr adapter chunk).fold := by
    intro dialect hd
    have hstart : Follows dialect { p.fold with sawContent := false, out := [] } :=
      ⟨(h.follows dialect hd).dialect_eq, (h.follows dialect hd).finished_eq⟩
    exact payloads_goesOn fromStr adapter.keepsStop hstart _
  refine ⟨h.open_, Or.inr (adapter.takesAll _), fun dialect hd => (hon dialect hd).follows,
    fun dialect hd => ?_⟩
  have hcounted : endings dialect (p.take fromStr adapter chunk).fold.out +
      p.fold.render.finished.toNat =
      0 + (p.take fromStr adapter chunk).fold.render.finished.toNat := (hon dialect hd).counted
  obtain ⟨hle, heq⟩ := h.counted dialect hd
  change endingsSent dialect p.sent + _ ≤ _ ∧ (p.clientGone = false →
    endingsSent dialect p.sent + _ = _)
  constructor
  · omega
  · intro hgone
    have := heq hgone
    omega

/-- A client that is gone is sent nothing more. -/
theorem Folded.gone (h : Folded adapter egress p) (hgone : p.clientGone = true) :
    Reading adapter egress p := by
  refine ⟨h.open_, h.rest, h.follows, fun dialect hd => ⟨?_, fun hpresent => ?_⟩⟩
  · have := (h.counted dialect hd).1
    omega
  · rw [hgone] at hpresent
    cases hpresent

/-- Nothing was rendered, so there is nothing to send. -/
theorem Folded.silent (h : Folded adapter egress p) {chunk : List UInt8}
    (hout : p.outbound egress chunk = none) : Reading adapter egress p := by
  refine ⟨h.open_, h.rest, h.follows, fun dialect hd => ?_⟩
  have hempty : p.fold.out = [] := by
    unfold Pump.outbound at hout
    cases egress with
    | passthrough d requestId model => cases hd
    | _ =>
      by_cases hnil : p.fold.out.isEmpty
      · exact List.isEmpty_iff.mp hnil
      · simp [hnil] at hout
  have hcounted := h.counted dialect hd
  rw [hempty] at hcounted
  exact hcounted

/-- What was rendered is sent, or the client is gone. -/
theorem Folded.forward (h : Folded adapter egress p) {chunk : List UInt8} {s : Sent}
    (hout : p.outbound egress chunk = some s) (delivery : Delivery) :
    Reading adapter egress (p.forward delivery s) := by
  have hs : s.closes = false ∧ ∀ dialect ∈ egress.rendered, s.rendered = p.fold.out := by
    unfold Pump.outbound at hout
    cases egress with
    | passthrough d requestId model =>
      by_cases hnil : chunk.isEmpty
      · simp [hnil] at hout
      · simp only [hnil, Bool.false_eq_true, if_false, Option.some.injEq] at hout
        rw [← hout]
        exact ⟨rfl, fun _ hd => by cases hd⟩
    | _ =>
      by_cases hnil : p.fold.out.isEmpty
      · simp [hnil] at hout
      · simp only [hnil, Bool.false_eq_true, if_false, Option.some.injEq] at hout
        rw [← hout]
        exact ⟨rfl, fun _ _ => rfl⟩
  cases delivery with
  | taken =>
    refine ⟨?_, h.rest, fun dialect hd => ?_, fun dialect hd => ?_⟩
    · intro other hother
      rcases List.mem_append.mp hother with hold | hnew
      · exact h.open_ other hold
      · rw [List.mem_singleton.mp hnew, hs.1]
    · exact ⟨(h.follows dialect hd).dialect_eq, (h.follows dialect hd).finished_eq⟩
    · have hsent : endingsSent dialect [s] = endings dialect p.fold.out := by
        unfold endingsSent
        rw [List.flatMap_singleton, hs.2 dialect hd]
      change endingsSent dialect (p.sent ++ [s]) ≤ _ ∧
        (p.clientGone = false → endingsSent dialect (p.sent ++ [s]) = _)
      rw [endingsSent_append, hsent]
      exact h.counted dialect hd
  | _ =>
    refine ⟨h.open_, h.rest, h.follows, fun dialect hd => ⟨?_, fun hgone => ?_⟩⟩
    · have hle := (h.counted dialect hd).1
      change endingsSent dialect p.sent ≤ p.fold.render.finished.toNat
      omega
    · cases hgone

theorem Reading.withError (h : Reading adapter egress p) (error : Option String) :
    Reading adapter egress { p with error := error } :=
  ⟨h.open_, h.rest, h.follows, h.counted⟩

theorem Reading.afterRead (h : Reading adapter egress p) :
    Reading adapter egress p.afterRead.1 := by
  unfold Pump.afterRead
  split
  · exact ⟨h.open_, Or.inl rfl, h.follows, h.counted⟩
  · exact h

theorem Reading.read (h : Reading adapter egress p) (turn : Turn) (bytes : List UInt8) :
    Reading adapter egress (p.read fromStr adapter deadlines egress turn bytes).1 := by
  have hfolded := h.take fromStr bytes
  unfold Pump.read
  generalize p.take fromStr adapter bytes = p' at hfolded
  simp only
  cases hgone : p'.clientGone with
  | true => exact (hfolded.gone hgone).afterRead
  | false =>
    cases hout : p'.outbound egress bytes with
    | none => exact (hfolded.silent hout).afterRead
    | some s =>
      have hsent := hfolded.forward hout turn.delivery
      cases turn.overdueAfter with
      | true => exact hsent.withError _
      | false => exact hsent.afterRead

/-- Whatever the pump meets, it goes on reading so until it stops. -/
theorem Reading.loop (turns : List Turn) (h : Reading adapter egress p) :
    Reading adapter egress (p.loop fromStr adapter deadlines egress turns) := by
  induction turns generalizing p with
  | nil => exact h
  | cons turn turns ih =>
    unfold Pump.loop
    cases turn.overdue with
    | true => exact h.withError _
    | false =>
      have hticked := h.ticks turn.ticks
      simp only [Bool.false_eq_true, if_false]
      cases turn.next with
      | idle => exact hticked.withError _
      | ended => exact hticked
      | failed message => exact hticked.withError _
      | chunk bytes =>
        have hread := hticked.read fromStr deadlines turn bytes
        simp only
        split
        · exact ih hread
        · exact hread

/-- What is left of the buffer comes to nothing. -/
theorem Reading.foldLeft (h : Reading adapter egress p) :
    Reading adapter egress (p.foldLeft fromStr adapter) := by
  unfold Pump.foldLeft
  split
  · exact h
  · rename_i hpending
    have hrest : adapter.takePayloads (p.pending ++ []) = (p.pending, []) := by
      rw [List.append_nil]
      exact h.rest.resolve_left fun hnil => hpending (List.isEmpty_iff.mpr hnil)
    have htake : p.take fromStr adapter [] =
        { p with fold := { p.fold with sawContent := false, out := [] } } := by
      unfold Pump.take
      rw [hrest]
      rfl
    rw [htake]
    exact ⟨h.open_, h.rest, fun dialect hd =>
      ⟨(h.follows dialect hd).dialect_eq, (h.follows dialect hd).finished_eq⟩, h.counted⟩

theorem Reading.settle (h : Reading adapter egress p) : Reading adapter egress p.settle :=
  ⟨h.open_, h.rest, h.follows, h.counted⟩

/-- A pump starts with nothing read and nothing sent. -/
theorem reading_start (adapter : Adapter) (egress : Egress) (names : FunctionNameMap) :
    Reading adapter egress (start egress names) := by
  refine ⟨fun s hs => (List.not_mem_nil hs).elim, Or.inl rfl, fun dialect hd => ?_,
    fun dialect hd => ?_⟩
  · cases egress <;> cases hd <;> exact ⟨rfl, rfl⟩
  · cases egress <;> cases hd <;> exact ⟨le_refl 0, fun _ => rfl⟩

end Steps

section Closing

variable (fromStr : String → Option Json) {adapter : Adapter} {egress : Egress} {p : Pump}

/-- A failure can be told to any client whose answer has not ended. -/
theorem exists_errorFrames (h : Reading adapter egress p) (hstop : p.fold.acc.stopReason = none)
    (hinBand : p.fold.inBand = none) (message : String) :
    ∃ frame frames, p.errorFrames fromStr egress message = frame :: frames := by
  have hlive : ∀ (r : Renderer), r.dialect.isSome = true → r.finished = false →
      ∃ frame frames, (r.render fromStr (.error message)).2 = frame :: frames := by
    intro r hdialect hfinished
    cases r with
    | none => cases hdialect
    | responses st =>
      have hopen : st.finished = false := hfinished
      have hcount := (responses_failure st message).2
      rw [hopen] at hcount
      refine List.exists_cons_of_ne_nil fun hnil => ?_
      have hframes : (Responses.renderFailure st message).2 = [] := hnil
      rw [hframes] at hcount
      cases hcount
    | _ => exact ⟨_, [], rfl⟩
  unfold Pump.errorFrames
  cases hegress : egress with
  | passthrough dialect requestId model =>
    obtain ⟨hdialect, -, hfinished⟩ := Renderer.forDialect_fresh dialect requestId model
    exact hlive _ (by rw [hdialect]; rfl) hfinished
  | _ =>
    have hfollows := h.follows _ (by rw [hegress]; rfl)
    refine hlive p.fold.render (by rw [hfollows.dialect_eq]; rfl) ?_
    rw [hfollows.finished_eq, hstop, hinBand]
    rfl

/-- An answer that did not end has failed of something. -/
theorem settle_error (p : Pump) (h : p.settle.fold.acc.stopReason = none) :
    ∃ message, p.settle.error = some message := by
  have hstop : p.fold.acc.stopReason = none := h
  unfold Pump.settle
  rw [hstop]
  cases (p.fold.inBand.map fun message => "upstream stream error: " ++ message).or p.error with
  | none => exact ⟨_, rfl⟩
  | some message => exact ⟨message, rfl⟩

theorem close_spec (p : Pump) (delivery : Delivery) (s : Sent) :
    (p.close delivery s).fold = p.fold ∧ (p.close delivery s).clientGone = p.clientGone ∧
      (p.close delivery s).sent = p.sent ++ if delivery = .taken then [s] else [] := by
  unfold Pump.close
  by_cases htaken : delivery = .taken
  · rw [if_pos htaken, if_pos htaken]
    exact ⟨rfl, rfl, rfl⟩
  · rw [if_neg htaken, if_neg htaken, List.append_nil]
    exact ⟨rfl, rfl, rfl⟩

/-- An answer that did not end, and did not say so itself, is reported to a client that is
there. -/
theorem sayFailed_eq (h : Reading adapter egress p) (herror : p.fold.acc.stopReason = none →
    ∃ message, p.error = some message) (delivery : Delivery) :
    ∃ frames, p.sayFailed fromStr egress delivery =
      if p.fold.acc.stopReason = none ∧ p.fold.inBand = none ∧ p.clientGone = false then
        p.close delivery (.failure frames)
      else p := by
  unfold Pump.sayFailed
  cases hstop : p.fold.acc.stopReason with
  | some reason => exact ⟨[], by simp⟩
  | none =>
    cases hgone : p.clientGone with
    | true => exact ⟨[], by simp⟩
    | false =>
      cases hinBand : p.fold.inBand with
      | some message => exact ⟨[], by simp⟩
      | none =>
        obtain ⟨message, hmessage⟩ := herror hstop
        obtain ⟨frame, frames, hframes⟩ := exists_errorFrames fromStr h hstop hinBand message
        refine ⟨frame :: frames, ?_⟩
        simp [hmessage, hframes]

/-- A translated Chat Completions answer that ended is followed by its sentinel. -/
theorem sayDone_eq (delivery : Delivery) : p.sayDone egress delivery =
    if egress.rendered = some .openAIChatCompletions ∧ p.fold.acc.stopReason.isSome = true ∧
        p.clientGone = false then
      p.close delivery .done
    else p := by
  unfold Pump.sayDone
  cases egress with
  | chatCompletions requestId model =>
    cases hgone : p.clientGone <;> cases hstop : p.fold.acc.stopReason <;>
      simp [Egress.rendered]
  | _ => simp [Egress.rendered]

/-- What a pump says last. -/
theorem exists_last (h : Reading adapter egress p) (herror : p.fold.acc.stopReason = none →
    ∃ message, p.error = some message) (atError atDone : Delivery) :
    ∃ frames, ((p.sayFailed fromStr egress atError).sayDone egress atDone).fold = p.fold ∧
      ((p.sayFailed fromStr egress atError).sayDone egress atDone).clientGone = p.clientGone ∧
      ((p.sayFailed fromStr egress atError).sayDone egress atDone).sent = p.sent ++
        ((if p.fold.acc.stopReason = none ∧ p.fold.inBand = none ∧ p.clientGone = false ∧
            atError = .taken then [.failure frames] else []) ++
          (if egress.rendered = some .openAIChatCompletions ∧
            p.fold.acc.stopReason.isSome = true ∧ p.clientGone = false ∧ atDone = .taken
            then [.done] else [])) := by
  obtain ⟨frames, hfailed⟩ := sayFailed_eq fromStr h herror atError
  obtain ⟨hfold, hgone, hsent⟩ := close_spec p atError (.failure frames)
  refine ⟨frames, ?_⟩
  rw [sayDone_eq, hfailed]
  by_cases hfailure : p.fold.acc.stopReason = none ∧ p.fold.inBand = none ∧ p.clientGone = false
  · have hopen : ¬ (egress.rendered = some .openAIChatCompletions ∧
        p.fold.acc.stopReason.isSome = true ∧ p.clientGone = false) := by
      rw [hfailure.1]
      rintro ⟨-, hstop, -⟩
      cases hstop
    simp only [if_pos hfailure, hfold, hgone, hsent, if_neg hopen]
    refine ⟨trivial, trivial, ?_⟩
    simp [hfailure]
  · simp only [if_neg hfailure]
    obtain ⟨hfold', hgone', hsent'⟩ := close_spec p atDone .done
    have hnot : ¬ (p.fold.acc.stopReason = none ∧ p.fold.inBand = none ∧ p.clientGone = false ∧
        atError = .taken) := fun hall => hfailure ⟨hall.1, hall.2.1, hall.2.2.1⟩
    rw [if_neg hnot, List.nil_append]
    by_cases hdone : egress.rendered = some .openAIChatCompletions ∧
        p.fold.acc.stopReason.isSome = true ∧ p.clientGone = false
    · rw [if_pos hdone]
      refine ⟨hfold', hgone', hsent'.trans ?_⟩
      simp [hdone]
    · have hnot' : ¬ (egress.rendered = some .openAIChatCompletions ∧
          p.fold.acc.stopReason.isSome = true ∧ p.clientGone = false ∧ atDone = .taken) :=
        fun hall => hdone ⟨hall.1, hall.2.1, hall.2.2.1⟩
      rw [if_neg hdone, if_neg hnot', List.append_nil]
      exact ⟨rfl, rfl, rfl⟩

end Closing

/-- The pump's own last word is one at most. It is the sentinel exactly where a translated Chat
Completions answer was stopped and its client is there, and an error exactly where an answer
was not stopped, no error came with it and its client is there. A renderer's own end of the
answer is sent at most once, never before such an error, and to a client that is there to the
end exactly where something ended the answer. -/
theorem pump_ends (fromStr : String → Option Json) (adapter : Adapter) (deadlines : Deadlines)
    (egress : Egress) (names : FunctionNameMap) (turns : List Turn) (atError atDone : Delivery) :
    let p := pumpWith fromStr adapter deadlines egress names turns atError atDone
    (∃ body last, p.sent = body ++ last ∧ last.length ≤ 1 ∧ ∀ s ∈ body, s.closes = false) ∧
    (.done ∈ p.sent ↔ egress.rendered = some .openAIChatCompletions ∧
      p.fold.acc.stopReason.isSome = true ∧ p.clientGone = false ∧ atDone = .taken) ∧
    ((∃ frames, .failure frames ∈ p.sent) ↔ p.fold.acc.stopReason = none ∧
      p.fold.inBand = none ∧ p.clientGone = false ∧ atError = .taken) ∧
    ∀ dialect ∈ egress.rendered,
      endingsSent dialect p.sent ≤ 1 ∧
      ((∃ frames, .failure frames ∈ p.sent) → endingsSent dialect p.sent = 0) ∧
      (p.clientGone = false → endingsSent dialect p.sent =
        (ends dialect p.fold.acc.stopReason.isSome p.fold.inBand.isSome).toNat) := by
  have hread := (((reading_start adapter egress names).loop fromStr deadlines turns).foldLeft
    fromStr).settle
  have herror := settle_error (((start egress names).loop fromStr adapter deadlines egress
    turns).foldLeft fromStr adapter)
  unfold pumpWith
  simp only
  generalize (((start egress names).loop fromStr adapter deadlines egress turns).foldLeft fromStr
    adapter).settle = p at hread herror
  obtain ⟨frames, hfold, hgone, hsent⟩ := exists_last fromStr hread herror atError atDone
  rw [hfold, hgone, hsent]
  have hbody : ∀ {s : Sent}, s.closes = true → s ∉ p.sent := by
    intro s hs hmem
    rw [hread.open_ s hmem] at hs
    cases hs
  have hdone : .done ∉ p.sent := hbody rfl
  have hfailures : ∀ fs, .failure fs ∉ p.sent := fun fs => hbody rfl
  have hfailed : (∃ fs, .failure fs ∈ p.sent ++
      ((if p.fold.acc.stopReason = none ∧ p.fold.inBand = none ∧ p.clientGone = false ∧
          atError = .taken then [.failure frames] else []) ++
        (if egress.rendered = some .openAIChatCompletions ∧
          p.fold.acc.stopReason.isSome = true ∧ p.clientGone = false ∧ atDone = .taken
          then [.done] else []))) ↔ p.fold.acc.stopReason = none ∧ p.fold.inBand = none ∧
      p.clientGone = false ∧ atError = .taken := by
    simp [hfailures]
  refine ⟨⟨p.sent, _, rfl, ?_, hread.open_⟩, by simp [hdone], hfailed, fun dialect hd => ?_⟩
  · have hone : ∀ (c : Prop) [Decidable c] (s : Sent), (if c then [s] else []).length ≤ 1 := by
      intro c _ s
      split <;> simp
    cases hstop : p.fold.acc.stopReason with
    | none => simpa using hone _ (.failure frames)
    | some reason => simpa using hone _ .done
  · have hlast : endingsSent dialect
        ((if p.fold.acc.stopReason = none ∧ p.fold.inBand = none ∧ p.clientGone = false ∧
            atError = .taken then [.failure frames] else []) ++
          (if egress.rendered = some .openAIChatCompletions ∧
            p.fold.acc.stopReason.isSome = true ∧ p.clientGone = false ∧ atDone = .taken
            then [.done] else [])) = 0 := by
      rw [endingsSent_append]
      split <;> split <;> rfl
    obtain ⟨hle, heq⟩ := hread.counted dialect hd
    have hfinished := (hread.follows dialect hd).finished_eq
    rw [endingsSent_append, hlast, Nat.add_zero, ← hfinished]
    refine ⟨hle.trans (Bool.toNat_le _), fun hfailure => ?_, heq⟩
    obtain ⟨hstop, hinBand, -⟩ := hfailed.mp hfailure
    rw [hstop, hinBand] at hfinished
    rw [hfinished] at hle
    exact Nat.le_zero.mp (hle.trans (by simp [ends]))

/-- What a take leaves of an SSE buffer holds no complete frame. -/
theorem takeSsePayloads_rest (buf : List UInt8) :
    Sse.takeSsePayloads (Sse.takeSsePayloads buf).1 = ((Sse.takeSsePayloads buf).1, []) := by
  rcases Sse.takeSsePayloads_spec buf with ⟨htake, -⟩ | ⟨x, y, hbuf, hblank, htake, hlongest⟩
  · rw [htake, htake]
  · rw [htake]
    rcases Sse.takeSsePayloads_spec y with ⟨hrest, -⟩ | ⟨x', y', hy, hblank', -, -⟩
    · exact hrest
    · have hlonger := hlongest (x ++ x') y' (by rw [hbuf, hy, List.append_assoc])
        (hblank'.append_left x)
      have hpos := List.length_pos_of_ne_nil hblank'.ne_nil
      rw [List.length_append] at hlonger
      omega

theorem chat_keepsStop (fromStr : String → Option Json) (payload : String)
    (acc acc' : StreamAccumulator) (events : List StreamEvent)
    (h : Chat.parseEvent fromStr payload acc = some (acc', events)) :
    acc'.stopReason = acc.stopReason := by
  have hchoice : ∀ choice, (Chat.parseChoice choice acc).1.stopReason = acc.stopReason := by
    intro choice
    unfold Chat.parseChoice
    simp only
    split <;> rfl
  unfold Chat.parseEvent at h
  by_cases hdone : payload = "[DONE]"
  · rw [if_pos hdone] at h
    cases h
    rfl
  · rw [if_neg hdone, Option.map_eq_some_iff] at h
    obtain ⟨v, -, hv⟩ := h
    cases hfirst : Chat.firstChoice v with
    | none =>
      simp only [hfirst, Prod.mk.injEq] at hv
      rw [← hv.1]
    | some choice =>
      simp only [hfirst, Prod.mk.injEq] at hv
      rw [← hv.1, hchoice]

/-- A Chat Completions upstream. -/
def chatAdapter (fromStr : String → Option Json) : Adapter :=
  ⟨Sse.takeSsePayloads, Chat.parseEvent fromStr, chat_keepsStop fromStr, takeSsePayloads_rest⟩

/-- A chunk of text, and the reading of it. -/
def lateChunk : String := "\x7b\"choices\":[\x7b\"delta\":\x7b\"content\":\"more\"\x7d\x7d]\x7d"

def readLate (text : String) : Option Json :=
  if text = lateChunk then
    some (.obj [("choices", .arr [.obj [("delta", .obj [("content", .str "more")])]])])
  else Chat.readChunk text

/-- An upstream that hangs up after its finish chunk leaves a verbatim client without the
sentinel, and one that writes on after it is rendered on, past the end of the answer. -/
theorem end_not_sent_or_not_last :
    let verbatim := pumpWith Chat.readChunk (chatAdapter Chat.readChunk) ⟨60, 600⟩
      (.passthrough .openAIChatCompletions "1" "m") {}
      [{ next := .chunk (CollectStream.sseFrame Chat.finishChunk) }] .taken .taken
    let rendered := pumpWith readLate (chatAdapter readLate) ⟨60, 600⟩
      (.anthropicMessages "1" "m") {}
      [{ next := .chunk (CollectStream.sseFrame Chat.finishChunk) },
        { next := .chunk (CollectStream.sseFrame lateChunk) }] .taken .taken
    (verbatim.fold.acc.stopReason = some .endTurn ∧ verbatim.clientGone = false ∧
      verbatim.sent = [.verbatim (CollectStream.sseFrame Chat.finishChunk)] ∧
      ¬ Utf8.encode "[DONE]".toList <:+: CollectStream.sseFrame Chat.finishChunk) ∧
    ∃ before after, rendered.sent = [.frames before, .frames after] ∧
      rendered.clientGone = false ∧ endings .anthropicMessages before = 1 ∧ after ≠ [] := by
  refine ⟨⟨rfl, rfl, rfl, by decide +kernel⟩, ?_⟩
  exact ⟨_, _, rfl, rfl, rfl, List.cons_ne_nil _ _⟩

end StreamPump

end OpenAIGateway
