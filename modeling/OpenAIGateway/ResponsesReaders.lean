import OpenAIGateway.ResponsesAssembly
import Mathlib.Algebra.BigOperators.Group.List.Basic

/-!
The two readers of the Responses dialect by what they tell. A payload of the
stream tells what its event brings; an item of a complete body tells its texts,
its summaries, the words of its refusals and its calls.
-/

set_option linter.all false

namespace OpenAIGateway.Responses

section Told

variable {names : FunctionNameMap} {t : Told} {acc : StreamAccumulator}

/-- The bytes of text and thinking told. -/
def bytesOf (t : Told) : ℕ := t.text.utf8ByteSize + t.thinking.utf8ByteSize

theorem bytesOf_told (e : Sent) : bytesOf (e.told names t) = bytesOf t + e.bytes := by
  cases e with
  | textDelta i j delta | summaryDelta i j delta | rawDelta i j delta =>
    simp only [bytesOf, Sent.told, Sent.bytes, String.utf8ByteSize_append]
    omega
  | itemAdded item => cases item <;> rfl
  | _ => rfl

/-- What a payload of the stream is read as telling. -/
theorem tellAll_shown {e : Sent} {v : Json} (hshows : e.Shows v) (hagrees : t.Agrees acc)
    (hnames : acc.functionNames = names) :
    t.tellAll (payloadEvents v acc) = e.told names t := by
  cases hshows with
  | created htype husage =>
    have hnone : parseUsage .null = {} := rfl
    simp [payloadEvents, htype, husage, hnone, Told.tellAll, Told.tell, Sent.told,
      Usage.merge_default]
  | itemAdded htype hitem =>
    cases hitem with
    | message hitem | reasoning hitem =>
      simp [payloadEvents, htype, isType, hitem, Told.tellAll, Sent.told]
    | other hitem hmessage hreasoning hcall =>
      simp [payloadEvents, htype, isType, hitem, hcall, Told.tellAll, Sent.told]
    | call hitem hid hname =>
      simp [payloadEvents, htype, isType, hitem, hid, hname, Told.tellAll, Told.tell, Sent.told,
        StreamAccumulator.restoreFunctionName, hnames]
  | partAdded i part htype | summaryPartAdded i htype | rawPartAdded i htype =>
    simp [payloadEvents, htype, Told.tellAll, Sent.told]
  | refusalDelta i j hdelta => simp [payloadEvents, hdelta.1, Told.tellAll, Sent.told]
  | textDelta i j hdelta | summaryDelta i j hdelta | rawDelta i j hdelta =>
    simp [payloadEvents, hdelta.1, hdelta.2, Told.tellAll, Told.tell, Sent.told]
  | argumentsDelta i hdelta =>
    have hcurrent : acc.currentToolId = (t.calls.map ToldCall.id).getLast? := by
      rw [← hagrees.toolIds, StreamAccumulator.toolIds, List.getLast?_map]
      rfl
    simp [payloadEvents, hdelta.1, hdelta.2, hcurrent, Told.tellAll, Told.tell, Sent.told]
  | itemDone i htype =>
    simp only [payloadEvents, htype, Option.getD_some]
    split <;> rfl
  | lifecycle htype hunread =>
    unfold payloadEvents
    rw [htype, Option.getD_some]
    split <;> simp_all [readKinds, Told.tellAll, Sent.told]

end Told

section Stream

variable {fromStr : String → Option Json} {names : FunctionNameMap} {t : Told} {r : Reading}

theorem payload_eq {p : String} {v : Json} (hv : fromStr p = some v) (r : Reading) :
    r.payload (parseEvent fromStr) p = r.observe r.acc (payloadEvents v r.acc) := by
  unfold Reading.payload parseEvent
  rw [hv]
  rfl

/-- The payloads of a stream are read as telling its events. -/
theorem reads_payloads (h : Reads names t r) {sent : List Sent} {payloads : List String}
    (hcarried : List.Forall₂ (fun e p => ∃ v, fromStr p = some v ∧ e.Shows v) sent payloads) :
    Reads names (sent.foldl (Sent.told names) t)
      (payloads.foldl (Reading.payload (parseEvent fromStr)) r) := by
  induction hcarried generalizing t r with
  | nil => exact h
  | cons hpayload hrest ih =>
    obtain ⟨v, hv, hshows⟩ := hpayload
    rw [List.foldl_cons, List.foldl_cons, payload_eq hv]
    apply ih
    rw [← tellAll_shown hshows h.agrees h.names]
    exact h.observe _

end Stream

section Shown

variable {names : FunctionNameMap} {t : Told}

theorem shows_isCall {item : OutputItem} {v : Json} (h : item.Shows v) :
    isType "function_call" v = item.isCall := by
  cases h with
  | message htype | reasoning htype | call htype => simp [isType, htype, OutputItem.isCall]
  | other htype hmessage hreasoning hcall => simp [isType, htype, hcall, OutputItem.isCall]

theorem shows_isRefusal {part : ContentPart} {v : Json} (h : part.Shows v) :
    isType "refusal" v = part.isRefusal := by
  cases h with
  | text htype | refusal htype => simp [isType, htype, ContentPart.isRefusal]
  | other htype htext hrefusal => simp [isType, htype, hrefusal, ContentPart.isRefusal]

/-- What each place of a list shows is there somewhere exactly when it is shown somewhere. -/
theorem any_of_forall₂ {α β : Type*} {R : α → β → Prop} {p : α → Bool} {q : β → Bool}
    (hsame : ∀ a b, R a b → q b = p a) {xs : List α} {ys : List β} (h : List.Forall₂ R xs ys) :
    ys.any q = xs.any p := by
  induction h with
  | nil => rfl
  | cons hab _ ih => rw [List.any_cons, List.any_cons, hsame _ _ hab, ih]

theorem shows_hasRefusal {item : OutputItem} {v : Json} (h : item.Shows v) :
    hasRefusal v = item.refusing := by
  cases h with
  | message htype hcontent hparts =>
    unfold hasRefusal
    rw [hcontent, Option.getD_some]
    exact any_of_forall₂ (fun _ _ hpart => shows_isRefusal hpart) hparts
  | reasoning htype hshown hsummary hraw =>
    unfold hasRefusal
    rw [any_of_forall₂ (p := fun _ => false) _ hraw]
    · simp [OutputItem.refusing]
    · intro text v hv
      simp [isType, hv.1]
  | call htype hid hname harguments hcontent =>
    simp [hasRefusal, hcontent, Json.asArray, OutputItem.refusing]
  | other htype hmessage hreasoning hcall hrefusal => exact hrefusal

theorem shows_refuses {item : OutputItem} {v : Json} (h : item.Shows v) :
    refuses v = item.refusing := by
  unfold refuses
  rw [shows_hasRefusal h]
  cases h with
  | message htype => simp [isType, htype]
  | _ => simp [OutputItem.refusing]

end Shown

section Body

variable {names : FunctionNameMap} {t : Told}

/-- What reading a part of a complete body adds to what was told. -/
structure Adds (n : ℕ) (calls : List ToldCall) (t t' : Told) : Prop where
  bytes : bytesOf t' = bytesOf t + n
  calls : t'.calls = calls
  usage : t'.usage = t.usage
  stop : t'.stop = t.stop

theorem adds_nothing (t : Told) : Adds 0 t.calls t t := ⟨rfl, rfl, rfl, rfl⟩

theorem Adds.trans {m n : ℕ} {cs ds : List ToldCall} {t u w : Told} (h : Adds m cs t u)
    (h' : Adds n ds u w) : Adds (m + n) ds t w where
  bytes := by
    rw [h'.bytes, h.bytes, Nat.add_assoc]
  calls := h'.calls
  usage := h'.usage.trans h.usage
  stop := h'.stop.trans h.stop

theorem adds_text (text : String) :
    Adds text.utf8ByteSize t.calls t (t.tell (.textDelta text)) where
  bytes := by
    simp only [bytesOf, Told.tell, String.utf8ByteSize_append]
    omega
  calls := rfl
  usage := rfl
  stop := rfl

theorem adds_thinking (text : String) :
    Adds text.utf8ByteSize t.calls t (t.tell (.thinkingDelta text)) where
  bytes := by
    simp only [bytesOf, Told.tell, String.utf8ByteSize_append]
    omega
  calls := rfl
  usage := rfl
  stop := rfl

theorem restoreInEvents_append (xs ys : List StreamEvent) :
    names.restoreInEvents (xs ++ ys) = names.restoreInEvents xs ++ names.restoreInEvents ys :=
  List.map_append

/-- Parts that each add their bytes and no call add the sum. -/
theorem adds_parts {α : Type*} {R : α → Json → Prop} {bytes : α → ℕ}
    {parse : Json → List StreamEvent} {xs : List α} {vs : List Json} (h : List.Forall₂ R xs vs)
    (hpart : ∀ a v t, R a v →
      Adds (bytes a) t.calls t (t.tellAll (names.restoreInEvents (parse v))))
    (t : Told) :
    Adds (xs.map bytes).sum t.calls t (t.tellAll (names.restoreInEvents (vs.flatMap parse))) := by
  induction h generalizing t with
  | nil => exact adds_nothing t
  | @cons a v xs vs hshows _ ih =>
    have hfirst := hpart a v t hshows
    rw [List.flatMap_cons, restoreInEvents_append, Told.tellAll_append, List.map_cons, List.sum_cons]
    have hrest := ih (t.tellAll (names.restoreInEvents (parse v)))
    rw [hfirst.calls] at hrest
    exact hfirst.trans hrest

theorem adds_part {part : ContentPart} {v : Json} (h : part.Shows v) (t : Told) :
    Adds (part.textBytes + part.refusalBytes) t.calls t
      (t.tellAll (names.restoreInEvents (parsePart v))) := by
  cases h with
  | @text _ words htype htext =>
    have hparse : parsePart v = [.textDelta words] := by simp [parsePart, htype, htext]
    rw [hparse]
    exact adds_text words
  | @refusal _ words htype htext =>
    have hparse : parsePart v = [.textDelta words] := by simp [parsePart, htype, htext]
    rw [hparse, Nat.add_comm]
    exact adds_text words
  | other htype htext hrefusal =>
    have hparse : parsePart v = [] := by
      unfold parsePart
      rw [htype, Option.getD_some]
      split <;> simp_all
    rw [hparse]
    exact adds_nothing t

theorem adds_summary {text : String} {v : Json} (h : ShowsText "summary_text" text v) (t : Told) :
    Adds text.utf8ByteSize t.calls t (t.tellAll (names.restoreInEvents (parseSummary v))) := by
  by_cases hempty : text = ""
  · have hparse : parseSummary v = [] := by simp [parseSummary, h.2, hempty, Option.filter]
    rw [hparse, hempty]
    exact adds_nothing t
  · have hparse : parseSummary v = [.thinkingDelta text] := by
      simp [parseSummary, h.2, hempty, Option.filter]
    rw [hparse]
    exact adds_thinking _

/-- The bytes of an item that the whole body is read for. -/
def OutputItem.bodyBytes (item : OutputItem) : ℕ := item.textBytes + item.refusalBytes

theorem adds_item (hids : names.toolUseIds = {}) {item : OutputItem} {v : Json} (h : item.Shows v)
    (t : Told) :
    Adds item.bodyBytes ((item.call? names).toList.foldl hear t.calls) t
      (t.tellAll (names.restoreInEvents (parseItem v))) := by
  cases h with
  | @message _ parts content htype hcontent hparts =>
    have hparse : parseItem v = content.flatMap parsePart := by
      simp [parseItem, htype, hcontent]
    have hsum : (parts.map (fun part => part.textBytes + part.refusalBytes)).sum =
        OutputItem.bodyBytes (.message parts) := List.sum_map_add ..
    rw [hparse, ← hsum]
    exact adds_parts hparts (fun _ _ t hpart => adds_part hpart t) t
  | @reasoning _ summary raw shown htype hshown hsummary hraw =>
    have hparse : parseItem v = shown.flatMap parseSummary := by
      simp [parseItem, htype, hshown]
    rw [hparse]
    exact adds_parts hsummary (fun _ _ t hpart => adds_summary hpart t) t
  | @call _ id name arguments htype hid hname harguments hcontent =>
    have hparse : parseItem v =
        [.toolUseStart id name, .toolUseDelta id arguments, .toolUseEnd id] := by
      simp [parseItem, htype, hid, hname, harguments]
    have hsame : names.originalToolUseId id = id := by
      unfold FunctionNameMap.originalToolUseId
      rw [hids]
      rfl
    rw [hparse]
    simp only [FunctionNameMap.restoreInEvents, List.map_cons, List.map_nil,
      FunctionNameMap.restoreInEvent, hsame]
    exact ⟨rfl, rfl, rfl, rfl⟩
  | other htype hmessage hreasoning hcall hrefusal =>
    have hparse : parseItem v = [] := by
      unfold parseItem
      rw [htype, Option.getD_some]
      split <;> simp_all
    rw [hparse]
    exact adds_nothing t

theorem adds_items (hids : names.toolUseIds = {}) {items : List OutputItem} {vs : List Json}
    (h : List.Forall₂ OutputItem.Shows items vs) (t : Told) :
    Adds (total OutputItem.bodyBytes items) ((calls names items).foldl hear t.calls) t
      (t.tellAll (names.restoreInEvents (vs.flatMap parseItem))) := by
  induction h generalizing t with
  | nil => exact adds_nothing t
  | @cons item v items vs hshows _ ih =>
    have hfirst := adds_item hids hshows t
    have hrest := ih (t.tellAll (names.restoreInEvents (parseItem v)))
    have hcalls : (calls names (item :: items)).foldl hear t.calls =
        (calls names items).foldl hear ((item.call? names).toList.foldl hear t.calls) := by
      rw [← List.foldl_append]
      congr 1
      cases hcall : item.call? names <;> simp [calls, hcall]
    rw [List.flatMap_cons, restoreInEvents_append, Told.tellAll_append, hcalls, ← hfirst.calls]
    exact hfirst.trans hrest

end Body

end OpenAIGateway.Responses
