import OpenAIGateway.GeminiRequest

/-!
The identity of the calls in a Gemini history. The wire has no call ids, and
the reader of a request gives every call its function's name for one, so calls
are told apart exactly where no function is called twice.
-/

set_option linter.all false

namespace OpenAIGateway.GeminiRequest

/-- The parts of a history, in order. -/
def historyParts (body : Json) : List Json :=
  ((field body "contents").asArray.getD []).flatMap (fun v => (field v "parts").asArray.getD [])

/-- The function a part calls. -/
def calledFunction (p : Json) : Option String :=
  if (field p "text").asStr.isNone ∧ ¬ (field p "functionCall").isNull then
    some ((field (field p "functionCall") "name").asStr.getD "")
  else none

/-- The function whose result a part is. -/
def answeredFunction (p : Json) : Option String :=
  if (field p "text").asStr.isNone ∧ (field p "functionCall").isNull ∧
      ¬ (field p "functionResponse").isNull then
    some ((field (field p "functionResponse") "name").asStr.getD "")
  else none

/-- The functions a history calls, in order. -/
def called (body : Json) : List String := (historyParts body).filterMap calledFunction

/-- The functions a history answers, in order. -/
def answered (body : Json) : List String := (historyParts body).filterMap answeredFunction

/-- The ids of the calls of a conversation, in order. -/
def useIds (messages : List Message) : List String :=
  (messages.flatMap Message.content).filterMap (fun b =>
    match b with
    | .toolUse id _ _ => some id
    | _ => none)

/-- The ids that the results of a conversation quote, in order. -/
def answerIds (messages : List Message) : List String :=
  (messages.flatMap Message.content).filterMap (fun b =>
    match b with
    | .toolResult id _ _ => some id
    | _ => none)

/-- The ids that stand beside a function's name. -/
def idsOf (f : String) (names ids : List String) : List String :=
  ((names.zip ids).filter (fun named => named.1 == f)).map Prod.snd

section Read

variable (toStr : Json → String)

/-- The calls of a history have ids of their own, and a function's answers quote
the ids of its calls, the first the first's and so on. -/
structure KeepsCallsApart (body : Json) : Prop where
  distinct : (useIds (parseRequest toStr body).messages).Nodup
  paired : ∀ (f : String) (k : ℕ) (use answer : String),
    (idsOf f (called body) (useIds (parseRequest toStr body).messages))[k]? = some use →
    (idsOf f (answered body) (answerIds (parseRequest toStr body).messages))[k]? = some answer →
    answer = use

/-- A turn without a part that means anything is no message, and adds nothing. -/
theorem content_parseContent (v : Json) :
    ((parseContent toStr v).toList).flatMap Message.content =
      ((field v "parts").asArray.getD []).filterMap (parsePart toStr) := by
  unfold parseContent
  cases (field v "parts").asArray with
  | none => rfl
  | some parts =>
    simp only [Option.bind_eq_bind, Option.bind_some, Option.getD_some]
    by_cases hempty : (parts.filterMap (parsePart toStr)).isEmpty = true
    · rw [if_pos hempty, List.isEmpty_iff.mp hempty]
      rfl
    · rw [if_neg hempty]
      simp

/-- The blocks of a history are those of its parts, in order. -/
theorem blocks_parseRequest (body : Json) :
    (parseRequest toStr body).messages.flatMap Message.content =
      (historyParts body).filterMap (parsePart toStr) := by
  have hturns : ∀ turns : List Json,
      (turns.filterMap (parseContent toStr)).flatMap Message.content =
        (turns.flatMap (fun v => (field v "parts").asArray.getD [])).filterMap (parsePart toStr) := by
    intro turns
    induction turns with
    | nil => rfl
    | cons v turns ih =>
      rw [List.flatMap_cons, List.filterMap_append, ← ih, ← content_parseContent]
      cases hv : parseContent toStr v with
      | none => rw [List.filterMap_cons_none hv]; rfl
      | some m =>
        rw [List.filterMap_cons_some hv]
        simp
  exact hturns _

/-- What a part is read as, by the members it has. -/
theorem parsePart_cases (p : Json) :
    (∃ text, parsePart toStr p = some (.text text none) ∧ calledFunction p = none ∧
      answeredFunction p = none) ∨
    (∃ f input, parsePart toStr p = some (.toolUse f f input) ∧ calledFunction p = some f ∧
      answeredFunction p = none) ∨
    (∃ f result, parsePart toStr p = some (.toolResult f result false) ∧ calledFunction p = none ∧
      answeredFunction p = some f) ∨
    ((∀ b, parsePart toStr p = some b → ∃ mediaType data, b = .image mediaType data) ∧
      calledFunction p = none ∧ answeredFunction p = none) := by
  unfold parsePart calledFunction answeredFunction
  cases htext : (field p "text").asStr with
  | some text => exact Or.inl ⟨text, rfl, rfl, rfl⟩
  | none =>
    right
    cases hcall : (field p "functionCall").isNull with
    | false => exact Or.inl ⟨_, _, rfl, rfl, rfl⟩
    | true =>
      right
      cases hresponse : (field p "functionResponse").isNull with
      | false => exact Or.inl ⟨_, _, rfl, rfl, rfl⟩
      | true =>
        right
        refine ⟨?_, rfl, rfl⟩
        intro b hb
        cases hinline : (field p "inlineData").isNull with
        | true => simp [hinline] at hb
        | false =>
          simp only [hinline, Bool.false_eq_true, not_true_eq_false, if_false, not_false_eq_true,
            if_true, Option.bind_eq_bind, Option.bind_eq_some_iff, Option.pure_def,
            Option.some.injEq] at hb
          obtain ⟨mediaType, -, data, -, rfl⟩ := hb
          exact ⟨mediaType, data, rfl⟩

/-- A call's id is the name of its function. -/
theorem useIds_parseRequest (body : Json) :
    useIds (parseRequest toStr body).messages = called body := by
  unfold useIds called
  rw [blocks_parseRequest, List.filterMap_filterMap]
  apply List.filterMap_congr
  intro p _
  rcases parsePart_cases toStr p with ⟨text, hp, hcalled, -⟩ | ⟨f, input, hp, hcalled, -⟩ |
    ⟨f, result, hp, hcalled, -⟩ | ⟨himage, hcalled, -⟩
  · rw [hp, hcalled]
    rfl
  · rw [hp, hcalled]
    rfl
  · rw [hp, hcalled]
    rfl
  · rw [hcalled]
    cases hp : parsePart toStr p with
    | none => rfl
    | some b =>
      obtain ⟨mediaType, data, rfl⟩ := himage b hp
      rfl

/-- What a result quotes is the name of its function. -/
theorem answerIds_parseRequest (body : Json) :
    answerIds (parseRequest toStr body).messages = answered body := by
  unfold answerIds answered
  rw [blocks_parseRequest, List.filterMap_filterMap]
  apply List.filterMap_congr
  intro p _
  rcases parsePart_cases toStr p with ⟨text, hp, -, hanswered⟩ | ⟨f, input, hp, -, hanswered⟩ |
    ⟨f, result, hp, -, hanswered⟩ | ⟨himage, -, hanswered⟩
  · rw [hp, hanswered]
    rfl
  · rw [hp, hanswered]
    rfl
  · rw [hp, hanswered]
    rfl
  · rw [hanswered]
    cases hp : parsePart toStr p with
    | none => rfl
    | some b =>
      obtain ⟨mediaType, data, rfl⟩ := himage b hp
      rfl

end Read

/-- Names that are their own ids. -/
theorem eq_of_idsOf_self {f id : String} {k : ℕ} {names : List String}
    (h : (idsOf f names names)[k]? = some id) : id = f := by
  obtain ⟨⟨name, id'⟩, hmem, rfl⟩ := List.mem_map.mp (List.mem_of_getElem? h)
  obtain ⟨hzip, hname⟩ := List.mem_filter.mp hmem
  rw [List.zip_eq_zipWith, List.zipWith_self] at hzip
  obtain ⟨name', -, hboth⟩ := List.mem_map.mp hzip
  cases hboth
  exact eq_of_beq hname

/-- The reader of a request keeps the calls of a history apart exactly when no
function is called twice. -/
theorem keepsCallsApart_iff (toStr : Json → String) (body : Json) :
    KeepsCallsApart toStr body ↔ (called body).Nodup := by
  constructor
  · intro h
    rw [← useIds_parseRequest toStr body]
    exact h.distinct
  · intro h
    constructor
    · rw [useIds_parseRequest]
      exact h
    · intro f k use answer huse hanswer
      rw [useIds_parseRequest] at huse
      rw [answerIds_parseRequest] at hanswer
      rw [eq_of_idsOf_self huse, eq_of_idsOf_self hanswer]

/-- A turn that calls one function twice, and the turn that answers both calls. -/
def twoForecasts : Json :=
  .obj [("contents", .arr [
    .obj [("role", .str "user"), ("parts", .arr [.obj [("text", .str "Paris or Rome?")]])],
    .obj [("role", .str "model"), ("parts", .arr [
      .obj [("functionCall", .obj [("name", .str "get_weather"),
        ("args", .obj [("city", .str "Paris")])])],
      .obj [("functionCall", .obj [("name", .str "get_weather"),
        ("args", .obj [("city", .str "Rome")])])]])],
    .obj [("role", .str "user"), ("parts", .arr [
      .obj [("functionResponse", .obj [("name", .str "get_weather"),
        ("response", .obj [("result", .str "rain")])])],
      .obj [("functionResponse", .obj [("name", .str "get_weather"),
        ("response", .obj [("result", .str "sun")])])]])]])]

/-- Both calls have the id `get_weather`. -/
theorem two_forecasts_share_an_id :
    called twoForecasts = ["get_weather", "get_weather"] ∧
      answered twoForecasts = ["get_weather", "get_weather"] ∧
      useIds (parseRequest (fun _ => "") twoForecasts).messages = ["get_weather", "get_weather"] ∧
      ¬ KeepsCallsApart (fun _ => "") twoForecasts := by
  have hcalled : called twoForecasts = ["get_weather", "get_weather"] := by decide
  refine ⟨hcalled, by decide, ?_, ?_⟩
  · rw [useIds_parseRequest, hcalled]
  · intro h
    have hdistinct := h.distinct
    rw [useIds_parseRequest, hcalled] at hdistinct
    exact absurd hdistinct (by decide)

end OpenAIGateway.GeminiRequest
