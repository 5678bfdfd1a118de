import OpenAIGateway.ChatRoundTrip
import OpenAIGateway.Transition

/-!
One answer, told in order: an optional start, runs of text and thinking, calls
that are each opened, filled and ended before anything else follows, and one
stop. Its renderer and its reader move in step, event by event; a reader that
notes nothing on its accumulator is followed frame by frame.
-/

set_option linter.all false

namespace OpenAIGateway

theorem Chat.word_zero : Chat.Word {} :=
  ⟨Nat.two_pow_pos 64, Nat.two_pow_pos 64, Nat.two_pow_pos 64, Nat.two_pow_pos 64⟩

theorem Chat.Word.merge {u v : Usage} (hu : Chat.Word u) (hv : Chat.Word v) :
    Chat.Word (u.merge v) where
  inputTokens := max_lt hu.inputTokens hv.inputTokens
  outputTokens := max_lt hu.outputTokens hv.outputTokens
  cacheReadTokens := max_lt hu.cacheReadTokens hv.cacheReadTokens
  cacheWriteTokens := max_lt hu.cacheWriteTokens hv.cacheWriteTokens

theorem Usage.Le.merge {u v w : Usage} (h : Usage.Le u w) (h' : Usage.Le v w) :
    Usage.Le (u.merge v) w :=
  ⟨max_le h.1 h'.1, max_le h.2.1 h'.2.1, max_le h.2.2.1 h'.2.2.1, max_le h.2.2.2 h'.2.2.2⟩

/-- Where an answer is: the calls it opened so far, and the one that is open. -/
structure AnswerPhase where
  seen : List String := []
  called : Option String := none
  deriving DecidableEq, Repr

namespace AnswerPhase

/-- What may follow: in a call, only its own fragments and its end. -/
def step (p : AnswerPhase) : StreamEvent → Option AnswerPhase
  | .textDelta _ | .thinkingDelta _ | .usageUpdate _ => if p.called = none then some p else none
  | .toolUseStart id _ =>
      if p.called = none ∧ id ∉ p.seen then some ⟨p.seen ++ [id], some id⟩ else none
  | .toolUseDelta id _ => if p.called = some id then some p else none
  | .toolUseEnd id => if p.called = some id then some { p with called := none } else none
  | .start _ _ | .stop _ _ | .error _ => none

/-- What an event of an answer can be, and where it leads. -/
@[elab_as_elim]
theorem step_cases {p : AnswerPhase}
    {motive : (e : StreamEvent) → (p' : AnswerPhase) → p.step e = some p' → Prop}
    (textDelta : ∀ text hstep, p.called = none → motive (.textDelta text) p hstep)
    (thinkingDelta : ∀ text hstep, p.called = none → motive (.thinkingDelta text) p hstep)
    (usageUpdate : ∀ usage hstep, p.called = none → motive (.usageUpdate usage) p hstep)
    (toolUseStart : ∀ id name hstep, p.called = none → id ∉ p.seen →
      motive (.toolUseStart id name) ⟨p.seen ++ [id], some id⟩ hstep)
    (toolUseDelta : ∀ id partialJson hstep, p.called = some id →
      motive (.toolUseDelta id partialJson) p hstep)
    (toolUseEnd : ∀ id hstep, p.called = some id →
      motive (.toolUseEnd id) { p with called := none } hstep)
    (e : StreamEvent) (p' : AnswerPhase) (hstep : p.step e = some p') : motive e p' hstep := by
  cases e with
  | textDelta text =>
    obtain ⟨hphase, hp⟩ := Option.ite_none_right_eq_some.mp hstep
    obtain rfl := Option.some.inj hp
    exact textDelta text hstep hphase
  | thinkingDelta text =>
    obtain ⟨hphase, hp⟩ := Option.ite_none_right_eq_some.mp hstep
    obtain rfl := Option.some.inj hp
    exact thinkingDelta text hstep hphase
  | usageUpdate usage =>
    obtain ⟨hphase, hp⟩ := Option.ite_none_right_eq_some.mp hstep
    obtain rfl := Option.some.inj hp
    exact usageUpdate usage hstep hphase
  | toolUseStart id name =>
    obtain ⟨⟨hphase, hnew⟩, hp⟩ := Option.ite_none_right_eq_some.mp hstep
    obtain rfl := Option.some.inj hp
    exact toolUseStart id name hstep hphase hnew
  | toolUseDelta id partialJson =>
    obtain ⟨hphase, hp⟩ := Option.ite_none_right_eq_some.mp hstep
    obtain rfl := Option.some.inj hp
    exact toolUseDelta id partialJson hstep hphase
  | toolUseEnd id =>
    obtain ⟨hphase, hp⟩ := Option.ite_none_right_eq_some.mp hstep
    obtain rfl := Option.some.inj hp
    exact toolUseEnd id hstep hphase
  | start model usage => cases hstep
  | stop reason usage => cases hstep
  | error message => cases hstep

/-- The phase knows the calls that were told, and that the open one is the last. -/
structure Fits (p : AnswerPhase) (t : Told) : Prop where
  ids : t.calls.map ToldCall.id = p.seen
  nodup : p.seen.Nodup
  last : ∀ id, p.called = some id →
    ∃ before name arguments, t.calls = before ++ [⟨id, name, arguments⟩]

theorem fits_opening {t : Told} (h : t.calls = []) : Fits {} t where
  ids := by rw [h, List.map_nil]
  nodup := List.nodup_nil
  last := by
    intro id hid
    cases hid

/-- A fragment of the open call is appended to the last call. -/
theorem Fits.tell_delta {p : AnswerPhase} {t : Told} {id : String} {before : List ToldCall}
    {name arguments : String} (h : p.Fits t) (hcalls : t.calls = before ++ [⟨id, name, arguments⟩])
    (partialJson : String) :
    (t.tell (.toolUseDelta id partialJson)).calls =
      before ++ [⟨id, name, arguments ++ partialJson⟩] := by
  have hnodup := h.nodup
  rw [← h.ids, hcalls, List.map_append] at hnodup
  have hnew : id ∉ before.map ToldCall.id := fun hmem =>
    (List.disjoint_of_nodup_append hnodup) hmem (List.mem_singleton_self _)
  show pushArguments id partialJson t.calls = _
  rw [hcalls, pushArguments_append_of_notMem partialJson hnew _ rfl]

theorem Fits.step {p p' : AnswerPhase} {t : Told} {e : StreamEvent} (h : p.Fits t)
    (hstep : p.step e = some p') : p'.Fits (t.tell e) := by
  induction e, p', hstep using step_cases with
  | textDelta text hstep hphase => exact ⟨h.ids, h.nodup, h.last⟩
  | thinkingDelta text hstep hphase => exact ⟨h.ids, h.nodup, h.last⟩
  | usageUpdate usage hstep hphase => exact ⟨h.ids, h.nodup, h.last⟩
  | toolUseStart id name hstep hphase hnew =>
    refine ⟨?_, ?_, ?_⟩
    · simp only [Told.tell, List.map_append, List.map_cons, List.map_nil, h.ids]
    · exact List.nodup_append.mpr ⟨h.nodup, List.nodup_singleton id, by
        intro a ha b hb
        rw [List.mem_singleton.mp hb]
        exact fun heq => hnew (heq ▸ ha)⟩
    · intro id' hid
      obtain rfl := Option.some.inj hid
      exact ⟨t.calls, name, "", rfl⟩
  | toolUseDelta id partialJson hstep hcalled =>
    refine ⟨?_, h.nodup, ?_⟩
    · simp only [Told.tell, Told.map_id_pushArguments, h.ids]
    · intro id' hid
      obtain rfl : id = id' := Option.some.inj (hcalled.symm.trans hid)
      obtain ⟨before, name, arguments, hcalls⟩ := h.last id hcalled
      exact ⟨before, name, arguments ++ partialJson, h.tell_delta hcalls partialJson⟩
  | toolUseEnd id hstep hcalled =>
    refine ⟨h.ids, h.nodup, ?_⟩
    intro id' hid
    cases hid

end AnswerPhase

/-- The events of one answer. -/
structure WholeAnswer (fromStr : String → Option Json) where
  start : Option (String × Usage)
  body : List StreamEvent
  reason : StopReason
  usage : Usage
  seen : List String
  sequential : Transition.run AnswerPhase.step {} body = some ⟨seen, none⟩
  /-- The counts are machine words, and what they merge to adds up within one. -/
  words : ∀ e ∈ start.toList.map (fun s => StreamEvent.start s.1 s.2) ++ body ++
    [.stop reason usage], Chat.Word (e.usage?.getD {})
  sums : (Told.of (start.toList.map (fun s => StreamEvent.start s.1 s.2) ++ body ++
    [.stop reason usage])).usage.sum < 2 ^ 64
  /-- The fragments of a call make JSON or nothing. -/
  arguments : ∀ call ∈ (Told.of body).calls,
    call.arguments = "" ∨ (fromStr call.arguments).isSome
  counted : (Told.of body).calls.length < 2 ^ 64

namespace WholeAnswer

variable {fromStr : String → Option Json} (a : WholeAnswer fromStr)

def opening : List StreamEvent := a.start.toList.map (fun s => .start s.1 s.2)

def events : List StreamEvent := a.opening ++ a.body ++ [.stop a.reason a.usage]

/-- What the answer told before its body. -/
def begun : Told := Told.of a.opening

/-- What the answer told before its stop. -/
def told : Told := a.begun.tellAll a.body

theorem told_events : Told.of a.events =
    { a.told with usage := a.told.usage.merge a.usage, stop := some a.reason } := by
  unfold events told begun
  rw [Told.of_append, Told.of_append]
  rfl

/-- The frames of an answer: those before its stop, and the stop's. -/
theorem renderAll_events {σ : Type} (render : StreamEvent → σ → σ × List Frame) (st : σ) :
    (renderAll render a.events st).2 = (renderAll render (a.opening ++ a.body) st).2 ++
      (render (.stop a.reason a.usage) (renderAll render (a.opening ++ a.body) st).1).2 := by
  unfold events
  rw [renderAll_append, renderAll_cons, renderAll_nil, List.append_nil]

theorem promptTokens_lt : (a.told.usage.merge a.usage).promptTokens < 2 ^ 64 := by
  have hsums : (Told.of a.events).usage.sum < 2 ^ 64 := a.sums
  rw [a.told_events, ← Usage.promptTokens_add_output] at hsums
  exact lt_of_le_of_lt (Nat.le_add_right _ _) hsums

theorem word_stop : Chat.Word a.usage :=
  a.words (.stop a.reason a.usage) (List.mem_append_right _ (List.mem_singleton_self _))

theorem begun_calls : a.begun.calls = [] := by
  unfold begun opening
  cases a.start <;> rfl

theorem fits : AnswerPhase.Fits ⟨a.seen, none⟩ a.told := by
  have hstep : ∀ (p : AnswerPhase) (t : Told) (e : StreamEvent) (p' : AnswerPhase), p.Fits t →
      True → p.step e = some p' → p'.Fits (t.tell e) := fun _ _ _ _ h _ hp => h.step hp
  exact Transition.simulation_run hstep (AnswerPhase.fits_opening a.begun_calls)
    (Transition.allSteps_true _ a.body) a.sequential

/-- An opening tells no call. -/
theorem told_calls : a.told.calls = (Told.of a.body).calls :=
  Told.calls_tellAll a.begun_calls a.body

end WholeAnswer

section Values

variable {fromStr : String → Option Json} (events : Json → StreamAccumulator → List StreamEvent)

namespace Reading

/-- Read a value with a reader that notes nothing on the accumulator. -/
def value (r : Reading) (f : Frame) : Reading := r.observe r.acc (events f.data r.acc)

/-- The frames of a stream are read as the values they were printed from. -/
theorem frames_eq_foldl_value {serde : Serde} {fs : List Frame} (hreads : serde.Reads fs)
    (parse : ParseEvent)
    (hparse : ∀ p acc, parse p acc = (serde.fromStr p).map (fun v => (acc, events v acc)))
    (r : Reading) : r.frames serde parse fs = fs.foldl (value events) r := by
  have hback := hreads.back
  unfold frames
  induction fs generalizing r with
  | nil => rfl
  | cons f fs ih =>
    have hfirst : r.payload parse (serde.toString f.data) = r.value events f := by
      unfold payload
      rw [hparse, hback f (List.mem_cons_self ..)]
      rfl
    rw [List.foldl_cons, List.foldl_cons, hfirst]
    exact ih ⟨fun f hf => hback f (.tail _ hf), hreads.done⟩ _ (fun f hf => hback f (.tail _ hf))

end Reading

/-- Frames that take a reader from having been told `t` to having been told `t'`. -/
def Tells (fs : List Frame) (t t' : Told) : Prop :=
  ∀ r, Reads {} t r → Reads {} t' (fs.foldl (Reading.value events) r)

variable {events}

theorem tells_nil (t : Told) : Tells events [] t t := fun _ h => h

theorem Tells.append {fs gs : List Frame} {t u w : Told} (h : Tells events fs t u)
    (h' : Tells events gs u w) : Tells events (fs ++ gs) t w := by
  intro r hr
  rw [List.foldl_append]
  exact h' _ (h r hr)

theorem tells_frame {f : Frame} {t t' : Told}
    (h : ∀ acc, t.Agrees acc → acc.functionNames = {} → t.tellAll (events f.data acc) = t') :
    Tells events [f] t t' := by
  intro r hr
  rw [← h r.acc hr.agrees hr.names]
  exact hr.observe _

theorem tells_silent {fs : List Frame} {t : Told} (h : ∀ f ∈ fs, Tells events [f] t t) :
    Tells events fs t t := by
  induction fs with
  | nil => exact tells_nil t
  | cons f fs ih =>
    exact (h f (List.mem_cons_self ..)).append (ih (fun g hg => h g (.tail _ hg)))

end Values

section Follow

variable {σ : Type} (render : StreamEvent → σ → σ × List Frame)
  {events : Json → StreamAccumulator → List StreamEvent}

/-- The answer so far, its renderer and the frames it rendered. -/
structure Rendering (σ : Type) where
  told : Told
  state : σ
  frames : List Frame

/-- One event told and rendered. -/
def Rendering.event (run : Rendering σ) (e : StreamEvent) : Rendering σ where
  told := run.told.tell e
  state := (render e run.state).1
  frames := run.frames ++ (render e run.state).2

theorem foldl_run (body : List StreamEvent) (run : Rendering σ) :
    body.foldl (Rendering.event render) run =
      { told := run.told.tellAll body
        state := (renderAll render body run.state).1
        frames := run.frames ++ (renderAll render body run.state).2 } := by
  induction body generalizing run with
  | nil =>
    rw [renderAll_nil, List.append_nil]
    rfl
  | cons e body ih =>
    rw [List.foldl_cons, ih, renderAll_cons, ← List.append_assoc]
    rfl

variable {render}

/-- What each event of the grammar keeps between the answer, the renderer and the reader, an answer
keeps up to its stop. -/
theorem follow_told {Follows : AnswerPhase → Told → Told → σ → Prop}
    (hopen : ∀ t t' st model usage, Follows {} t t' st → Chat.Word usage →
      ∃ t'', Tells events (render (.start model usage) st).2 t' t'' ∧
        Follows {} (t.tell (.start model usage)) t'' (render (.start model usage) st).1)
    (hstep : ∀ p p' t t' st e, p.Fits t → Follows p t t' st → Chat.Word (e.usage?.getD {}) →
      p.step e = some p' → ∃ t'', Tells events (render e st).2 t' t'' ∧
        Follows p' (t.tell e) t'' (render e st).1)
    {fromStr : String → Option Json} (a : WholeAnswer fromStr) {st : σ}
    (hnew : Follows {} {} {} st) :
    ∃ t', Tells events (renderAll render (a.opening ++ a.body) st).2 {} t' ∧
      Follows ⟨a.seen, none⟩ a.told t' (renderAll render (a.opening ++ a.body) st).1 := by
  obtain ⟨t, htells, hfollows⟩ : ∃ t, Tells events (renderAll render a.opening st).2 {} t ∧
      Follows {} a.begun t (renderAll render a.opening st).1 := by
    cases hstart : a.start with
    | none =>
      simp only [WholeAnswer.begun, WholeAnswer.opening, hstart]
      exact ⟨{}, tells_nil {}, hnew⟩
    | some s =>
      have hword : Chat.Word s.2 := by
        refine a.words (.start s.1 s.2) (List.mem_append_left _ (List.mem_append_left _ ?_))
        simp [hstart]
      simp only [WholeAnswer.begun, WholeAnswer.opening, hstart]
      obtain ⟨t, htells, hfollows⟩ := hopen {} {} st s.1 s.2 hnew hword
      refine ⟨t, ?_, hfollows⟩
      simpa using htells
  have hwords : ∀ e ∈ a.body, Chat.Word (e.usage?.getD {}) := fun e he =>
    a.words e (List.mem_append_left _ (List.mem_append_right _ he))
  have hkeep : ∀ p (run : Rendering σ) e p',
      (p.Fits run.told ∧ ∃ t', Tells events run.frames {} t' ∧ Follows p run.told t' run.state) →
      Chat.Word (e.usage?.getD {}) → p.step e = some p' →
      (p'.Fits (run.event render e).told ∧ ∃ t', Tells events (run.event render e).frames {} t' ∧
        Follows p' (run.event render e).told t' (run.event render e).state) := by
    rintro p run e p' ⟨hfits, t', hreads, hfollows⟩ hword hp
    obtain ⟨t'', htells, hnext⟩ := hstep p p' run.told t' run.state e hfits hfollows hword hp
    exact ⟨hfits.step hp, t'', hreads.append htells, hnext⟩
  have hrun := Transition.simulation_run hkeep
    (t := ⟨a.begun, (renderAll render a.opening st).1, (renderAll render a.opening st).2⟩)
    ⟨AnswerPhase.fits_opening a.begun_calls, t, htells, hfollows⟩
    (Transition.allSteps_of_forall_mem _ hwords) a.sequential
  rw [foldl_run] at hrun
  rw [renderAll_append]
  exact hrun.2

end Follow

end OpenAIGateway
