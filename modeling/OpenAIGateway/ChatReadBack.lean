import OpenAIGateway.WholeAnswer
import Mathlib.Algebra.GroupWithZero.Nat

/-!
An answer streamed in Chat Completions and read back. The answers that are read
back as they were told are those whose calls all have an id: a call is announced
by its id, so the reader never hears of one whose id is empty.
-/

set_option linter.all false

namespace OpenAIGateway.Chat

section Opened

theorem seen_subset_run {p p' : AnswerPhase} {body : List StreamEvent}
    (hrun : Transition.run AnswerPhase.step p body = some p') : p.seen ⊆ p'.seen := by
  have hstep : ∀ (q : AnswerPhase) (e : StreamEvent) (q' : AnswerPhase), p.seen ⊆ q.seen →
      q.step e = some q' → p.seen ⊆ q'.seen := by
    intro q e q' h hq
    induction e, q', hq using AnswerPhase.step_cases with
    | toolUseStart id name hq hphase hnew => exact fun x hx => List.mem_append_left _ (h hx)
    | _ => exact h
  exact Transition.preserved_run hstep (List.Subset.refl _) hrun

/-- The body of an answer whose calls all have an id opens them as the reader expects. -/
theorem wellOpened_of_run {p p' : AnswerPhase} {body : List StreamEvent}
    (hopen : ∀ id, p.called = some id → id ∈ p.seen) (hids : "" ∉ p'.seen)
    (hrun : Transition.run AnswerPhase.step p body = some p') : WellOpened p.seen body := by
  induction body generalizing p with
  | nil => trivial
  | cons e body ih =>
    obtain ⟨next, hnext, hrest⟩ := Option.bind_eq_some_iff.mp hrun
    induction e, next, hnext using AnswerPhase.step_cases with
    | textDelta text hnext hphase => exact ih hopen hrest
    | thinkingDelta text hnext hphase => exact ih hopen hrest
    | usageUpdate usage hnext hphase => exact ih hopen hrest
    | toolUseStart id name hnext hphase hnew =>
      have hlast : id ∈ p.seen ++ [id] := List.mem_append_right _ (List.mem_singleton_self id)
      refine ⟨?_, hnew, ih ?_ hrest⟩
      · rintro rfl
        exact hids (seen_subset_run hrest hlast)
      · intro id' hid'
        obtain rfl := Option.some.inj hid'
        exact hlast
    | toolUseDelta id partialJson hnext hphase => exact ⟨hopen id hphase, ih hopen hrest⟩
    | toolUseEnd id hnext hphase => exact ih (p := { p with called := none }) nofun hrest

end Opened

section Whole

variable {fromStr : String → Option Json} (a : WholeAnswer fromStr)

theorem word_told (t : Told) (events : List StreamEvent) (ht : Word t.usage)
    (h : ∀ e ∈ events, Word (e.usage?.getD {})) : Word (t.tellAll events).usage := by
  induction events generalizing t with
  | nil => exact ht
  | cons e events ih =>
    refine ih (t.tell e) ?_ (fun e' he' => h e' (.tail _ he'))
    have hword := h e (List.mem_cons_self ..)
    cases e with
    | start model usage | usageUpdate usage | stop reason usage => exact ht.merge hword
    | textDelta text => exact ht
    | thinkingDelta text => exact ht
    | toolUseStart id name => exact ht
    | toolUseDelta id partialJson => exact ht
    | toolUseEnd id => exact ht
    | error message => exact ht

/-- An answer whose calls all have an id, as the events before its stop and the stop. -/
def Answer.ofWhole (hids : "" ∉ a.seen) : Answer where
  body := a.opening ++ a.body
  reason := a.reason
  usage := a.usage
  opened := by
    have hbody := wellOpened_of_run (p := {}) nofun hids a.sequential
    unfold WholeAnswer.opening
    cases a.start with
    | none => exact hbody
    | some s => exact hbody
  counted := by
    have hcounted := a.counted
    rw [← a.told_calls] at hcounted
    rwa [Told.of_append]
  words := word_told {} _ word_zero a.words

/-- What an answer's stream is read back as, when every call has an id. -/
theorem stream_told (serde : Serde) (a : WholeAnswer serde.fromStr) (requestId model : String)
    (hids : "" ∉ a.seen)
    (hreads : serde.Reads (renderAll renderEvent a.events (.new requestId model)).2) :
    Told.of (Reading.frames serde (parseEvent serde.fromStr) {}
      (renderAll renderEvent a.events (.new requestId model)).2).events =
      { a.told with
        usage := foldWrites (Told.of a.events).usage
        stop := some (collapse a.reason (!a.told.calls.isEmpty)) } := by
  obtain ⟨r, hr, htold, -⟩ := (Answer.ofWhole a hids).readBack serde requestId model hreads
  have hbody : Told.of (Answer.ofWhole a hids).body = a.told := by
    exact Told.of_append a.opening a.body
  have hsum : (Told.of a.events).usage.promptTokens < 2 ^ 64 := by
    rw [a.told_events]
    exact a.promptTokens_lt
  have husage : readUsage (Told.of (Answer.ofWhole a hids).events).usage =
      foldWrites (Told.of a.events).usage :=
    (readUsage_eq_iff (Answer.ofWhole a hids).words).mpr hsum
  have hframes : (Answer.ofWhole a hids).frames requestId model =
      (renderAll renderEvent a.events (.new requestId model)).2 := rfl
  rw [← hframes, hr, htold, hbody, husage]
  rfl

end Whole

section Announced

def opens : StreamEvent → Bool
  | .toolUseStart _ _ => true
  | _ => false

def announces (call : Json) : Bool := (nonEmptyStr call["id"]).isSome

/-- How many calls a chunk announces. -/
def announced (v : Json) : ℕ :=
  (((firstChoice v).getD .null)["delta"]["tool_calls"].asArray.getD []).countP announces

theorem length_tellAll (t : Told) (events : List StreamEvent) :
    (t.tellAll events).calls.length = t.calls.length + events.countP opens := by
  induction events generalizing t with
  | nil => rfl
  | cons e events ih =>
    have hrest : (t.tellAll (e :: events)).calls.length =
        (t.tell e).calls.length + events.countP opens := ih (t.tell e)
    rw [hrest, List.countP_cons]
    cases e with
    | toolUseStart id name =>
      simp only [Told.tell, List.length_append, List.length_singleton, opens, if_true]
      omega
    | toolUseDelta id partialJson => simp [Told.tell, Told.length_pushArguments, opens]
    | _ => simp [Told.tell, opens]

/-- A payload opens the calls it announces, and no other. -/
theorem countP_parseCalls (acc : StreamAccumulator) (opened : List String) (calls : List Json) :
    (parseCalls acc opened calls).2.countP opens = calls.countP announces := by
  induction calls generalizing opened with
  | nil => rfl
  | cons call rest ih =>
    have hfirst : (parseCall acc opened call).2.countP opens =
        if announces call then 1 else 0 := by
      unfold parseCall announces
      cases nonEmptyStr call["id"] with
      | none => simp [Function.comp_def, opens]
      | some id => simp [List.countP_cons, Function.comp_def, opens]
    simp only [parseCalls, List.countP_append, hfirst, ih, List.countP_cons]
    omega

theorem countP_parseChoice (choice : Json) (acc : StreamAccumulator) :
    (parseChoice choice acc).2.countP opens =
      (choice["delta"]["tool_calls"].asArray.getD []).countP announces := by
  have hfinish : ∀ acc' opened (reasons : List String),
      (reasons.flatMap (finishEvents acc' opened)).countP opens = 0 := by
    intro acc' opened reasons
    rw [List.countP_eq_zero]
    intro e he
    obtain ⟨reason, -, he⟩ := List.mem_flatMap.mp he
    unfold finishEvents at he
    rcases List.mem_append.mp he with he | he
    · obtain ⟨id, -, rfl⟩ := List.mem_map.mp he
      exact Bool.false_ne_true
    · rw [List.mem_singleton.mp he]
      exact Bool.false_ne_true
  unfold parseChoice
  simp [hfinish, countP_parseCalls, Function.comp_def, opens]

theorem length_payload {serde : Serde} (hdone : serde.fromStr "[DONE]" = none) (r : Reading)
    {f : Frame} (hback : serde.fromStr (serde.toString f.data) = some f.data) :
    (Told.of (r.payload (parseEvent serde.fromStr) (serde.toString f.data)).events).calls.length =
      (Told.of r.events).calls.length + announced f.data := by
  have husage : ∀ usage : Option Usage,
      (usage.toList.map StreamEvent.usageUpdate).countP opens = 0 := by
    intro usage
    cases usage <;> rfl
  unfold Reading.payload parseEvent announced
  rw [if_neg (ne_done hdone hback), hback]
  simp only [Option.map_some]
  cases firstChoice f.data with
  | none =>
    simp only [Reading.observe, Told.of_append, length_tellAll, husage]
    rfl
  | some choice =>
    simp only [Reading.observe, Told.of_append, length_tellAll, List.countP_append, husage,
      countP_parseChoice, Nat.zero_add, Option.getD_some]

theorem length_frames {serde : Serde} {fs : List Frame} (hreads : serde.Reads fs) (r : Reading) :
    (Told.of (r.frames serde (parseEvent serde.fromStr) fs).events).calls.length =
      (Told.of r.events).calls.length + (fs.map (fun f => announced f.data)).sum := by
  have hback := hreads.back
  unfold Reading.frames
  induction fs generalizing r with
  | nil => rfl
  | cons f fs ih =>
    have hfirst := length_payload hreads.done r (hback f (List.mem_cons_self ..))
    have hrest := ih ⟨fun f hf => hback f (.tail _ hf), hreads.done⟩
      (r.payload (parseEvent serde.fromStr) (serde.toString f.data))
      (fun f hf => hback f (.tail _ hf))
    rw [List.foldl_cons, hrest, hfirst, List.map_cons, List.sum_cons, Nat.add_assoc]

/-- The calls that have an id. -/
def identified (t : Told) : ℕ := (t.calls.map ToldCall.id).countP (fun id => !id.isEmpty)

/-- A call is announced when it opens, if it has an id. -/
theorem announced_renderEvent (e : StreamEvent) (st : RenderState) (t : Told) :
    identified t + ((renderEvent e st).2.map (fun f => announced f.data)).sum =
      identified (t.tell e) := by
  cases e with
  | toolUseStart id name =>
    have hannounces : announces (startJson (st.toolIndex id).2 id name) = !id.isEmpty := by
      show ((some id).filter (fun s => !s.isEmpty)).isSome = !id.isEmpty
      rw [Option.filter_some]
      cases id.isEmpty <;> rfl
    have hone : ((renderEvent (.toolUseStart id name) st).2.map (fun f => announced f.data)).sum =
        [startJson (st.toolIndex id).2 id name].countP announces := rfl
    rw [hone, List.countP_singleton, hannounces]
    simp only [identified, Told.tell, List.map_append, List.map_cons, List.map_nil,
      List.countP_append, List.countP_singleton]
  | toolUseDelta id partialJson =>
    have hnone : ((renderEvent (.toolUseDelta id partialJson) st).2.map
        (fun f => announced f.data)).sum = 0 := rfl
    simp only [hnone, identified, Told.tell, Told.map_id_pushArguments, Nat.add_zero]
  | textDelta text =>
    have hnone : ((renderEvent (.textDelta text) st).2.map
        (fun f => announced f.data)).sum = 0 := by
      unfold renderEvent
      cases st.roleSent <;> rfl
    rw [hnone]
    rfl
  | stop reason usage =>
    have hnone : ((renderEvent (.stop reason usage) st).2.map
        (fun f => announced f.data)).sum = 0 := by
      unfold renderEvent
      cases st.finished <;> rfl
    rw [hnone]
    rfl
  | start model usage => rfl
  | thinkingDelta text => rfl
  | toolUseEnd id => rfl
  | usageUpdate usage => rfl
  | error message => rfl

theorem announced_renderAll (events : List StreamEvent) (st : RenderState) (t : Told) :
    identified t + ((renderAll renderEvent events st).2.map (fun f => announced f.data)).sum =
      identified (t.tellAll events) := by
  induction events generalizing st t with
  | nil => rfl
  | cons e events ih =>
    have hrest : identified (t.tell e) + ((renderAll renderEvent events (renderEvent e st).1).2.map
        (fun f => announced f.data)).sum = identified (t.tellAll (e :: events)) :=
      ih (renderEvent e st).1 (t.tell e)
    rw [renderAll_cons, List.map_append, List.sum_append, ← Nat.add_assoc,
      announced_renderEvent e st t, hrest]

/-- A call without an id is not read back. -/
theorem call_lost (serde : Serde) (a : WholeAnswer serde.fromStr) (requestId model : String)
    (hids : "" ∈ a.seen)
    (hreads : serde.Reads (renderAll renderEvent a.events (.new requestId model)).2) :
    (Told.of (Reading.frames serde (parseEvent serde.fromStr) {}
      (renderAll renderEvent a.events (.new requestId model)).2).events).calls.length <
      a.told.calls.length := by
  have hannounced := announced_renderAll a.events (.new requestId model) {}
  have htold : Told.tellAll {} a.events =
      { a.told with usage := a.told.usage.merge a.usage, stop := some a.reason } := a.told_events
  have hread := length_frames hreads {}
  have hcount : identified a.told ≠ a.told.calls.length := by
    intro hall
    rw [← List.length_map ToldCall.id] at hall
    have hmem : "" ∈ a.told.calls.map ToldCall.id := by
      rw [a.fits.ids]
      exact hids
    exact absurd (List.countP_eq_length.mp hall "" hmem) Bool.false_ne_true
  have hle : identified a.told ≤ a.told.calls.length := by
    rw [← List.length_map ToldCall.id]
    exact List.countP_le_length
  have hsum : ((renderAll renderEvent a.events (.new requestId model)).2.map
      (fun f => announced f.data)).sum = identified a.told := by
    rw [htold] at hannounced
    have hzero : identified {} = 0 := rfl
    rw [hzero, Nat.zero_add] at hannounced
    exact hannounced
  rw [hsum] at hread
  have hstart : (Told.of ({} : Reading).events).calls.length = 0 := rfl
  omega

end Announced

end OpenAIGateway.Chat
