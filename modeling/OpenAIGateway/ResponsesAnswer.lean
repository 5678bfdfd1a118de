import OpenAIGateway.ResponsesParse
import OpenAIGateway.Transition

/-!
A Responses answer and its stream. The output items of an answer are shown by
the JSON of a complete response; a stream adds the items one by one, opens
their parts and appends fragments to them, each addressed by its place in the
output. Where a stream has assembled the whole output, its terminal event
carries the complete response.
-/

set_option linter.all false

namespace OpenAIGateway.Responses

inductive ContentPart
  | text (text : String)
  | refusal (text : String)
  | other
  deriving DecidableEq, Repr

/-- An output item. A reasoning item holds its summary and, from the models that give it, the
reasoning itself. -/
inductive OutputItem
  | message (parts : List ContentPart)
  | reasoning (summary raw : List String)
  | call (id name arguments : String)
  | other
  deriving DecidableEq, Repr

section Shows

/-- A part of a message in JSON, whatever other members it has. -/
inductive ContentPart.Shows : ContentPart → Json → Prop
  | text {v : Json} {text : String} (htype : v["type"].asStr = some "output_text")
      (htext : v["text"].asStr = some text) : Shows (.text text) v
  | refusal {v : Json} {text : String} (htype : v["type"].asStr = some "refusal")
      (htext : v["refusal"].asStr = some text) : Shows (.refusal text) v
  | other {v : Json} {kind : String} (htype : v["type"].asStr = some kind)
      (htext : kind ≠ "output_text") (hrefusal : kind ≠ "refusal") : Shows .other v

/-- A part of a reasoning item in JSON. -/
def ShowsText (kind text : String) (v : Json) : Prop :=
  v["type"].asStr = some kind ∧ v["text"].asStr = some text

/-- An output item in JSON. Refusals are parts of messages only. -/
inductive OutputItem.Shows : OutputItem → Json → Prop
  | message {v : Json} {parts : List ContentPart} {content : List Json}
      (htype : v["type"].asStr = some "message") (hcontent : v["content"].asArray = some content)
      (hparts : List.Forall₂ ContentPart.Shows parts content) : Shows (.message parts) v
  | reasoning {v : Json} {summary raw : List String} {shown : List Json}
      (htype : v["type"].asStr = some "reasoning") (hshown : v["summary"].asArray = some shown)
      (hsummary : List.Forall₂ (ShowsText "summary_text") summary shown)
      (hraw : List.Forall₂ (ShowsText "reasoning_text") raw (v["content"].asArray.getD [])) :
      Shows (.reasoning summary raw) v
  | call {v : Json} {id name arguments : String}
      (htype : v["type"].asStr = some "function_call") (hid : v["call_id"].asStr = some id)
      (hname : v["name"].asStr = some name) (harguments : v["arguments"].asStr = some arguments)
      (hcontent : v["content"] = .null) : Shows (.call id name arguments) v
  | other {v : Json} {kind : String} (htype : v["type"].asStr = some kind)
      (hmessage : kind ≠ "message") (hreasoning : kind ≠ "reasoning")
      (hcall : kind ≠ "function_call") (hrefusal : hasRefusal v = false) : Shows .other v

end Shows

/-- The events of a stream. An item is addressed by its place in the output, a part by its place in
the item. -/
inductive Sent
  | created
  | itemAdded (item : OutputItem)
  | partAdded (item : ℕ) (part : ContentPart)
  | textDelta (item part : ℕ) (delta : String)
  | refusalDelta (item part : ℕ) (delta : String)
  | summaryPartAdded (item : ℕ)
  | summaryDelta (item part : ℕ) (delta : String)
  | rawPartAdded (item : ℕ)
  | rawDelta (item part : ℕ) (delta : String)
  | argumentsDelta (item : ℕ) (delta : String)
  | itemDone (item : ℕ)
  | lifecycle
  deriving DecidableEq, Repr

/-- The kinds of event that are read. -/
def readKinds : List String :=
  ["response.created", "response.output_text.delta", "response.reasoning_summary_text.delta",
    "response.reasoning_text.delta", "response.output_item.added",
    "response.function_call_arguments.delta", "response.output_item.done", "response.completed",
    "response.incomplete", "response.failed", "error"]

def ShowsDelta (kind delta : String) (v : Json) : Prop :=
  v["type"].asStr = some kind ∧ v["delta"].asStr = some delta

/-- An event of a stream in JSON. A response that was only created has no usage yet. -/
inductive Sent.Shows : Sent → Json → Prop
  | created {v : Json} (htype : v["type"].asStr = some "response.created")
      (husage : v["response"]["usage"] = .null) : Shows .created v
  | itemAdded {v : Json} {item : OutputItem}
      (htype : v["type"].asStr = some "response.output_item.added")
      (hitem : item.Shows v["item"]) : Shows (.itemAdded item) v
  | partAdded {v : Json} (i : ℕ) (part : ContentPart)
      (htype : v["type"].asStr = some "response.content_part.added") : Shows (.partAdded i part) v
  | textDelta {v : Json} {delta : String} (i j : ℕ)
      (hdelta : ShowsDelta "response.output_text.delta" delta v) : Shows (.textDelta i j delta) v
  | refusalDelta {v : Json} {delta : String} (i j : ℕ)
      (hdelta : ShowsDelta "response.refusal.delta" delta v) : Shows (.refusalDelta i j delta) v
  | summaryPartAdded {v : Json} (i : ℕ)
      (htype : v["type"].asStr = some "response.reasoning_summary_part.added") :
      Shows (.summaryPartAdded i) v
  | summaryDelta {v : Json} {delta : String} (i j : ℕ)
      (hdelta : ShowsDelta "response.reasoning_summary_text.delta" delta v) :
      Shows (.summaryDelta i j delta) v
  | rawPartAdded {v : Json} (i : ℕ)
      (htype : v["type"].asStr = some "response.content_part.added") : Shows (.rawPartAdded i) v
  | rawDelta {v : Json} {delta : String} (i j : ℕ)
      (hdelta : ShowsDelta "response.reasoning_text.delta" delta v) : Shows (.rawDelta i j delta) v
  | argumentsDelta {v : Json} {delta : String} (i : ℕ)
      (hdelta : ShowsDelta "response.function_call_arguments.delta" delta v) :
      Shows (.argumentsDelta i delta) v
  | itemDone {v : Json} (i : ℕ) (htype : v["type"].asStr = some "response.output_item.done") :
      Shows (.itemDone i) v
  | lifecycle {v : Json} {kind : String} (htype : v["type"].asStr = some kind)
      (hunread : kind ∉ readKinds) : Shows .lifecycle v

section Assemble

variable {α : Type*}

/-- Update one place of a list, where it is there and may be updated. -/
def updateAt (f : α → Option α) : ℕ → List α → Option (List α)
  | _, [] => none
  | 0, a :: rest => (f a).map (· :: rest)
  | i + 1, a :: rest => (updateAt f i rest).map (a :: ·)

theorem updateAt_eq_some {f : α → Option α} {i : ℕ} {xs ys : List α}
    (h : updateAt f i xs = some ys) :
    ∃ before a b after, xs = before ++ a :: after ∧ f a = some b ∧ ys = before ++ b :: after ∧
      before.length = i := by
  induction xs generalizing i ys with
  | nil => simp [updateAt] at h
  | cons x xs ih =>
    cases i with
    | zero =>
      obtain ⟨b, hb, rfl⟩ := Option.map_eq_some_iff.mp h
      exact ⟨[], x, b, xs, rfl, hb, rfl, rfl⟩
    | succ i =>
      obtain ⟨zs, hzs, rfl⟩ := Option.map_eq_some_iff.mp h
      obtain ⟨before, a, b, after, rfl, hb, rfl, hlength⟩ := ih hzs
      refine ⟨x :: before, a, b, after, rfl, hb, rfl, ?_⟩
      rw [List.length_cons, hlength]

/-- An item as it is added: nothing in it yet. -/
def OutputItem.bare : OutputItem → Bool
  | .message parts => parts.isEmpty
  | .reasoning summary raw => summary.isEmpty && raw.isEmpty
  | .call _ _ arguments => arguments.isEmpty
  | .other => true

def ContentPart.bare : ContentPart → Bool
  | .text words | .refusal words => words.isEmpty
  | .other => true

def ContentPart.appendText (delta : String) : ContentPart → Option ContentPart
  | .text words => some (.text (words ++ delta))
  | _ => none

def ContentPart.appendRefusal (delta : String) : ContentPart → Option ContentPart
  | .refusal words => some (.refusal (words ++ delta))
  | _ => none

namespace OutputItem

def addPart (part : ContentPart) : OutputItem → Option OutputItem
  | .message parts => some (.message (parts ++ [part]))
  | _ => none

/-- Update a part of a message. -/
def onPart (f : ContentPart → Option ContentPart) (j : ℕ) : OutputItem → Option OutputItem
  | .message parts => (updateAt f j parts).map .message
  | _ => none

def onSummary (f : List String → Option (List String)) : OutputItem → Option OutputItem
  | .reasoning summary raw => (f summary).map (.reasoning · raw)
  | _ => none

def onRaw (f : List String → Option (List String)) : OutputItem → Option OutputItem
  | .reasoning summary raw => (f raw).map (.reasoning summary ·)
  | _ => none

def appendArguments (delta : String) : OutputItem → Option OutputItem
  | .call id name arguments => some (.call id name (arguments ++ delta))
  | _ => none

end OutputItem

/-- Add an empty text. -/
def addText (texts : List String) : Option (List String) := some (texts ++ [""])

def appendAt (j : ℕ) (delta : String) : List String → Option (List String) :=
  updateAt (fun text => some (text ++ delta)) j

/-- What an event makes of the output so far; `none` where it addresses nothing it could change. -/
def assemble (items : List OutputItem) : Sent → Option (List OutputItem)
  | .created | .lifecycle => some items
  | .itemAdded item => if item.bare then some (items ++ [item]) else none
  | .partAdded i part => if part.bare then updateAt (OutputItem.addPart part) i items else none
  | .textDelta i j delta => updateAt (OutputItem.onPart (ContentPart.appendText delta) j) i items
  | .refusalDelta i j delta =>
      updateAt (OutputItem.onPart (ContentPart.appendRefusal delta) j) i items
  | .summaryPartAdded i => updateAt (OutputItem.onSummary addText) i items
  | .summaryDelta i j delta => updateAt (OutputItem.onSummary (appendAt j delta)) i items
  | .rawPartAdded i => updateAt (OutputItem.onRaw addText) i items
  | .rawDelta i j delta => updateAt (OutputItem.onRaw (appendAt j delta)) i items
  | .argumentsDelta i delta => updateAt (OutputItem.appendArguments delta) i items
  | .itemDone i => if i < items.length then some items else none

end Assemble

/-- An answer, a complete response that shows it and a stream of it. -/
structure Streamed (fromStr : String → Option Json) where
  output : List OutputItem
  body : Json
  sent : List Sent
  payloads : List String
  terminal : String
  /-- The complete response shows the output. -/
  shown : ∃ items, body["output"].asArray = some items ∧ List.Forall₂ OutputItem.Shows output items
  /-- The stream assembles it. -/
  assembled : Transition.run assemble [] sent = some output
  carried : List.Forall₂ (fun e p => ∃ v, fromStr p = some v ∧ e.Shows v) sent payloads
  /-- The terminal event carries the complete response. -/
  ended : ∃ v, fromStr terminal = some v ∧ v["response"] = body ∧
    (v["type"].asStr = some "response.completed" ∨ v["type"].asStr = some "response.incomplete")

end OpenAIGateway.Responses
