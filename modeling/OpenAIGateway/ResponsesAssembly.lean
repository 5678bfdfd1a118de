import OpenAIGateway.ReadBack
import Mathlib.Algebra.GroupWithZero.Nat
import OpenAIGateway.ResponsesAnswer
import Mathlib.Data.List.Nodup

/-!
What a Responses stream assembles, counted: the bytes a stream is read for and
the calls it opens and fills. Fragments of arguments are told of the call opened
last. A fragment that belongs to an earlier call is missing from that call ever
after.
-/

set_option linter.all false

namespace OpenAIGateway.Responses

section Measures

def ContentPart.textBytes : ContentPart → ℕ
  | .text words => words.utf8ByteSize
  | _ => 0

def ContentPart.refusalBytes : ContentPart → ℕ
  | .refusal words => words.utf8ByteSize
  | _ => 0

def ContentPart.isRefusal : ContentPart → Bool
  | .refusal _ => true
  | _ => false

namespace OutputItem

/-- The bytes both readers count: texts and summaries. -/
def textBytes : OutputItem → ℕ
  | .message parts => (parts.map ContentPart.textBytes).sum
  | .reasoning summary _ => (summary.map String.utf8ByteSize).sum
  | _ => 0

def refusalBytes : OutputItem → ℕ
  | .message parts => (parts.map ContentPart.refusalBytes).sum
  | _ => 0

def rawBytes : OutputItem → ℕ
  | .reasoning _ raw => (raw.map String.utf8ByteSize).sum
  | _ => 0

def isCall : OutputItem → Bool
  | .call _ _ _ => true
  | _ => false

def refusing : OutputItem → Bool
  | .message parts => parts.any ContentPart.isRefusal
  | _ => false

/-- The call an item is, under the name the client knows it by. -/
def call? (names : FunctionNameMap) : OutputItem → Option ToldCall
  | .call id name arguments => some ⟨id, names.original name, arguments⟩
  | _ => none

end OutputItem

def total (bytes : OutputItem → ℕ) (items : List OutputItem) : ℕ := (items.map bytes).sum

def calls (names : FunctionNameMap) (items : List OutputItem) : List ToldCall :=
  items.filterMap (OutputItem.call? names)

end Measures

/-- A fragment of arguments belongs to the call opened last, or is empty. -/
def Addressed (items : List OutputItem) : Sent → Prop
  | .argumentsDelta i delta => delta = "" ∨ (items.drop (i + 1)).any OutputItem.isCall = false
  | _ => True

instance (items : List OutputItem) : (e : Sent) → Decidable (Addressed items e)
  | .argumentsDelta i delta => inferInstanceAs
      (Decidable (delta = "" ∨ (items.drop (i + 1)).any OutputItem.isCall = false))
  | .created | .lifecycle | .itemAdded _ | .partAdded _ _ | .textDelta _ _ _
  | .refusalDelta _ _ _ | .summaryPartAdded _ | .summaryDelta _ _ _ | .rawPartAdded _
  | .rawDelta _ _ _ | .itemDone _ => inferInstanceAs (Decidable True)

section Updates

variable {α β : Type*}

/-- An update that adds to the measure of one place adds it to the sum. -/
theorem sum_updateAt {bytes : α → ℕ} {f : α → Option α} {n i : ℕ} {xs ys : List α}
    (hf : ∀ a b, f a = some b → bytes b = bytes a + n) (h : updateAt f i xs = some ys) :
    (ys.map bytes).sum = (xs.map bytes).sum + n := by
  obtain ⟨before, a, b, after, rfl, hb, rfl, -⟩ := updateAt_eq_some h
  simp only [List.map_append, List.map_cons, List.sum_append, List.sum_cons, hf a b hb]
  omega

theorem filterMap_updateAt {g : α → Option β} {f : α → Option α} {i : ℕ} {xs ys : List α}
    (hf : ∀ a b, f a = some b → g b = g a) (h : updateAt f i xs = some ys) :
    ys.filterMap g = xs.filterMap g := by
  obtain ⟨before, a, b, after, rfl, hb, rfl, -⟩ := updateAt_eq_some h
  simp only [List.filterMap_append, List.filterMap_cons, hf a b hb]

/-- Replacing one place leaves the others. -/
theorem getElem?_append_cons_of_ne (before : List α) (a b : α) (after : List α) {k : ℕ}
    (hk : k ≠ before.length) : (before ++ a :: after)[k]? = (before ++ b :: after)[k]? := by
  rcases Nat.lt_or_gt_of_ne hk with hlt | hgt
  · rw [List.getElem?_append_left hlt, List.getElem?_append_left hlt]
  · have hsub : k - before.length = (k - before.length - 1) + 1 := by omega
    rw [List.getElem?_append_right (by omega), List.getElem?_append_right (by omega), hsub,
      List.getElem?_cons_succ, List.getElem?_cons_succ]

end Updates

/-- The bytes an event brings that the stream is read for. -/
def Sent.bytes : Sent → ℕ
  | .textDelta _ _ delta | .summaryDelta _ _ delta | .rawDelta _ _ delta => delta.utf8ByteSize
  | _ => 0

/-- The bytes of an item that the stream is read for. -/
def OutputItem.streamBytes (item : OutputItem) : ℕ := item.textBytes + item.rawBytes

section Operations

variable {item item' : OutputItem} {delta : String} {j : ℕ}

theorem streamBytes_addPart {part : ContentPart} (hbare : part.bare)
    (h : item.addPart part = some item') : item'.streamBytes = item.streamBytes + 0 := by
  cases item with
  | message parts =>
    obtain rfl := Option.some.inj h
    have hpart : part.textBytes = 0 := by
      cases part with
      | text words => simpa [ContentPart.bare, ContentPart.textBytes] using hbare
      | refusal words => rfl
      | other => rfl
    simp [OutputItem.streamBytes, OutputItem.textBytes, OutputItem.rawBytes, hpart]
  | _ => cases h

theorem streamBytes_onPart {f : ContentPart → Option ContentPart} {n : ℕ}
    (hf : ∀ a b, f a = some b → b.textBytes = a.textBytes + n)
    (h : item.onPart f j = some item') : item'.streamBytes = item.streamBytes + n := by
  cases item with
  | message parts =>
    obtain ⟨parts', hparts, rfl⟩ := Option.map_eq_some_iff.mp h
    exact sum_updateAt hf hparts
  | _ => cases h

theorem textBytes_appendText {a b : ContentPart} (h : a.appendText delta = some b) :
    b.textBytes = a.textBytes + delta.utf8ByteSize := by
  cases a with
  | text words =>
    obtain rfl := Option.some.inj h
    exact String.utf8ByteSize_append ..
  | _ => cases h

theorem textBytes_appendRefusal {a b : ContentPart} (h : a.appendRefusal delta = some b) :
    b.textBytes = a.textBytes + 0 := by
  cases a with
  | refusal words =>
    obtain rfl := Option.some.inj h
    rfl
  | _ => cases h

/-- An operation on the texts of a reasoning item that adds to their length. -/
def Lengthens (f : List String → Option (List String)) (n : ℕ) : Prop :=
  ∀ xs ys, f xs = some ys →
    (ys.map String.utf8ByteSize).sum = (xs.map String.utf8ByteSize).sum + n

theorem lengthens_addText : Lengthens addText 0 := by
  intro xs ys h
  obtain rfl := Option.some.inj h
  simp

theorem lengthens_appendAt (j : ℕ) (delta : String) :
    Lengthens (appendAt j delta) delta.utf8ByteSize := by
  intro xs ys h
  apply sum_updateAt _ h
  intro a b hb
  obtain rfl := Option.some.inj hb
  exact String.utf8ByteSize_append ..

theorem streamBytes_onSummary {f : List String → Option (List String)} {n : ℕ}
    (hf : Lengthens f n) (h : item.onSummary f = some item') :
    item'.streamBytes = item.streamBytes + n := by
  cases item with
  | reasoning summary raw =>
    obtain ⟨summary', hsummary, rfl⟩ := Option.map_eq_some_iff.mp h
    have hlength := hf summary summary' hsummary
    simp only [OutputItem.streamBytes, OutputItem.textBytes, OutputItem.rawBytes]
    omega
  | _ => cases h

theorem streamBytes_onRaw {f : List String → Option (List String)} {n : ℕ}
    (hf : Lengthens f n) (h : item.onRaw f = some item') :
    item'.streamBytes = item.streamBytes + n := by
  cases item with
  | reasoning summary raw =>
    obtain ⟨raw', hraw, rfl⟩ := Option.map_eq_some_iff.mp h
    have hlength := hf raw raw' hraw
    simp only [OutputItem.streamBytes, OutputItem.textBytes, OutputItem.rawBytes]
    omega
  | _ => cases h

variable {names : FunctionNameMap}

theorem call?_addPart {part : ContentPart} (h : item.addPart part = some item') :
    item'.call? names = item.call? names := by
  cases item with
  | message parts =>
    obtain rfl := Option.some.inj h
    rfl
  | _ => cases h

theorem call?_onPart {f : ContentPart → Option ContentPart} (h : item.onPart f j = some item') :
    item'.call? names = item.call? names := by
  cases item with
  | message parts =>
    obtain ⟨parts', -, rfl⟩ := Option.map_eq_some_iff.mp h
    rfl
  | _ => cases h

theorem call?_onSummary {f : List String → Option (List String)}
    (h : item.onSummary f = some item') : item'.call? names = item.call? names := by
  cases item with
  | reasoning summary raw =>
    obtain ⟨summary', -, rfl⟩ := Option.map_eq_some_iff.mp h
    rfl
  | _ => cases h

theorem call?_onRaw {f : List String → Option (List String)} (h : item.onRaw f = some item') :
    item'.call? names = item.call? names := by
  cases item with
  | reasoning summary raw =>
    obtain ⟨raw', -, rfl⟩ := Option.map_eq_some_iff.mp h
    rfl
  | _ => cases h

end Operations

/-- What one event adds to the bytes the stream is read for. -/
theorem assemble_bytes {items items' : List OutputItem} {e : Sent}
    (h : assemble items e = some items') :
    total OutputItem.streamBytes items' = total OutputItem.streamBytes items + e.bytes := by
  cases e with
  | created | lifecycle =>
    obtain rfl := Option.some.inj h
    rfl
  | itemAdded item =>
    obtain ⟨hbare, h⟩ := Option.ite_none_right_eq_some.mp h
    obtain rfl := Option.some.inj h
    have hempty : item.streamBytes = 0 := by
      cases item <;> simp_all [OutputItem.bare, OutputItem.streamBytes, OutputItem.textBytes,
        OutputItem.rawBytes]
    simp [total, hempty, Sent.bytes]
  | partAdded i part =>
    obtain ⟨hbare, h⟩ := Option.ite_none_right_eq_some.mp h
    exact sum_updateAt (fun _ _ => streamBytes_addPart hbare) h
  | textDelta i j delta =>
    exact sum_updateAt (fun _ _ => streamBytes_onPart (fun _ _ => textBytes_appendText)) h
  | refusalDelta i j delta =>
    exact sum_updateAt (fun _ _ => streamBytes_onPart (fun _ _ => textBytes_appendRefusal)) h
  | summaryPartAdded i =>
    exact sum_updateAt (fun _ _ => streamBytes_onSummary lengthens_addText) h
  | summaryDelta i j delta =>
    exact sum_updateAt (fun _ _ => streamBytes_onSummary (lengthens_appendAt j delta)) h
  | rawPartAdded i => exact sum_updateAt (fun _ _ => streamBytes_onRaw lengthens_addText) h
  | rawDelta i j delta =>
    exact sum_updateAt (fun _ _ => streamBytes_onRaw (lengthens_appendAt j delta)) h
  | argumentsDelta i delta =>
    apply sum_updateAt (n := 0) _ h
    intro a b hb
    cases a with
    | call id name arguments =>
      obtain rfl := Option.some.inj hb
      rfl
    | _ => cases hb
  | itemDone i =>
    obtain ⟨-, h⟩ := Option.ite_none_right_eq_some.mp h
    obtain rfl := Option.some.inj h
    rfl

section Calls

variable {names : FunctionNameMap} {items items' : List OutputItem} {e : Sent} {t : Told}

theorem any_isCall_eq_false_iff (names : FunctionNameMap) (items : List OutputItem) :
    items.any OutputItem.isCall = false ↔ calls names items = [] := by
  induction items with
  | nil => simp [calls]
  | cons item items ih =>
    cases item <;> simp_all [calls, OutputItem.isCall, OutputItem.call?]

/-- What the reader tells of a stream's event. Arguments go to the call opened last. -/
def Sent.told (names : FunctionNameMap) (t : Told) : Sent → Told
  | .itemAdded (.call id name _) =>
      { t with calls := t.calls ++ [⟨id, names.original name, ""⟩] }
  | .textDelta _ _ delta => { t with text := t.text ++ delta }
  | .summaryDelta _ _ delta | .rawDelta _ _ delta => { t with thinking := t.thinking ++ delta }
  | .argumentsDelta _ delta =>
      { t with calls :=
          pushArguments ((t.calls.map ToldCall.id).getLast?.getD "") delta t.calls }
  | _ => t

/-- A fragment of arguments lengthens one call. -/
theorem assemble_arguments (names : FunctionNameMap) {i : ℕ} {delta : String}
    (h : assemble items (.argumentsDelta i delta) = some items') :
    ∃ before call after, calls names items = before ++ call :: after ∧
      calls names items' =
        before ++ { call with arguments := call.arguments ++ delta } :: after ∧
      after = calls names (items.drop (i + 1)) := by
  obtain ⟨before, a, b, after, rfl, hb, rfl, rfl⟩ := updateAt_eq_some h
  cases a with
  | call id name arguments =>
    obtain rfl := Option.some.inj hb
    refine ⟨calls names before, ⟨id, names.original name, arguments⟩, calls names after, ?_, ?_, ?_⟩
    · simp [calls, OutputItem.call?]
    · simp [calls, OutputItem.call?]
    · rw [← List.drop_drop, List.drop_left]
      rfl
  | _ => cases hb

/-- What an event can do to the calls of the output, and what is told of them. -/
theorem assemble_calls (names : FunctionNameMap) (t : Told) (h : assemble items e = some items') :
    (calls names items' = calls names items ∧ (e.told names t).calls = t.calls) ∨
    (∃ id name, calls names items' = calls names items ++ [⟨id, name, ""⟩] ∧
      (e.told names t).calls = t.calls ++ [⟨id, name, ""⟩]) ∨
    (∃ i delta before call after, e = .argumentsDelta i delta ∧
      calls names items = before ++ call :: after ∧
      calls names items' =
        before ++ { call with arguments := call.arguments ++ delta } :: after ∧
      after = calls names (items.drop (i + 1))) := by
  cases e with
  | created | lifecycle =>
    obtain rfl := Option.some.inj h
    exact .inl ⟨rfl, rfl⟩
  | itemAdded item =>
    obtain ⟨hbare, h⟩ := Option.ite_none_right_eq_some.mp h
    obtain rfl := Option.some.inj h
    cases item with
    | call id name arguments =>
      obtain rfl : arguments = "" := by simpa [OutputItem.bare] using hbare
      refine .inr (.inl ⟨id, names.original name, ?_, rfl⟩)
      simp [calls, OutputItem.call?]
    | _ => exact .inl ⟨by simp [calls, OutputItem.call?], rfl⟩
  | partAdded i part =>
    obtain ⟨-, h⟩ := Option.ite_none_right_eq_some.mp h
    exact .inl ⟨filterMap_updateAt (fun _ _ => call?_addPart) h, rfl⟩
  | textDelta i j delta => exact .inl ⟨filterMap_updateAt (fun _ _ => call?_onPart) h, rfl⟩
  | refusalDelta i j delta => exact .inl ⟨filterMap_updateAt (fun _ _ => call?_onPart) h, rfl⟩
  | summaryPartAdded i => exact .inl ⟨filterMap_updateAt (fun _ _ => call?_onSummary) h, rfl⟩
  | summaryDelta i j delta => exact .inl ⟨filterMap_updateAt (fun _ _ => call?_onSummary) h, rfl⟩
  | rawPartAdded i => exact .inl ⟨filterMap_updateAt (fun _ _ => call?_onRaw) h, rfl⟩
  | rawDelta i j delta => exact .inl ⟨filterMap_updateAt (fun _ _ => call?_onRaw) h, rfl⟩
  | argumentsDelta i delta =>
    obtain ⟨before, call, after, hcalls, hitems, hafter⟩ := assemble_arguments names h
    exact .inr (.inr ⟨i, delta, before, call, after, rfl, hcalls, hitems, hafter⟩)
  | itemDone i =>
    obtain ⟨-, h⟩ := Option.ite_none_right_eq_some.mp h
    obtain rfl := Option.some.inj h
    exact .inl ⟨rfl, rfl⟩

end Calls

section Heard

variable {names : FunctionNameMap} {items items' : List OutputItem} {e : Sent} {t : Told}

/-- The calls of the output so far, told as they were opened and filled. -/
def Heard (names : FunctionNameMap) (items : List OutputItem) (t : Told) : Prop :=
  t.calls = (calls names items).foldl hear []

theorem heard_nil (names : FunctionNameMap) : Heard names [] {} := rfl

theorem Heard.ids (h : Heard names items t) :
    t.calls.map ToldCall.id = (calls names items).map ToldCall.id := by
  rw [h, map_id_foldl_hear, List.map_nil, List.nil_append]

theorem Heard.step (h : Heard names items t) (haddressed : Addressed items e)
    (hstep : assemble items e = some items') : Heard names items' (e.told names t) := by
  unfold Heard at *
  obtain ⟨hitems, htold⟩ | ⟨id, name, hitems, htold⟩ |
    ⟨i, delta, before, call, after, rfl, hcalls, hitems, hafter⟩ := assemble_calls names t hstep
  · rw [hitems, htold, h]
  · rw [hitems, htold, h, List.foldl_append, List.foldl_cons, List.foldl_nil]
    exact (Told.pushArguments_empty ..).symm
  · rcases haddressed with rfl | hlast
    · rw [String.append_empty] at hitems
      rw [hitems, ← hcalls, ← h]
      exact Told.pushArguments_empty ..
    · -- The call addressed is the one opened last, so the fragment is its own.
      obtain rfl : after = [] := hafter.trans ((any_isCall_eq_false_iff names _).mp hlast)
      have hids : (t.calls.map ToldCall.id).getLast?.getD "" = call.id := by
        rw [Heard.ids h, hcalls]
        simp
      show pushArguments ((t.calls.map ToldCall.id).getLast?.getD "") delta t.calls = _
      rw [hids, h, hcalls, hitems, List.foldl_append, List.foldl_append]
      exact pushArguments_pushArguments ..

end Heard

section Lags

variable {names : FunctionNameMap} {items items' : List OutputItem} {e : Sent} {t : Told}

/-- A call opened before the last one was told less of its arguments than it has. -/
structure Lags (names : FunctionNameMap) (items : List OutputItem) (t : Told) : Prop where
  ids : t.calls.map ToldCall.id = (calls names items).map ToldCall.id
  behind : ∃ k call heard, (calls names items)[k]? = some call ∧ t.calls[k]? = some heard ∧
    heard.arguments.utf8ByteSize < call.arguments.utf8ByteSize ∧ k + 1 < t.calls.length

theorem getElem?_pushArguments_of_ne {id delta : String} {told : List ToldCall} {k : ℕ}
    {heard : ToldCall} (hk : told[k]? = some heard) (hne : heard.id ≠ id) :
    (pushArguments id delta told)[k]? = some heard := by
  induction told generalizing k with
  | nil => simp at hk
  | cons call told ih =>
    unfold pushArguments
    cases k with
    | zero =>
      obtain rfl : call = heard := by simpa using hk
      rw [if_neg hne]
      rfl
    | succ k =>
      split
      · exact hk
      · exact ih hk

/-- With distinct ids, no call but the last has the last one's id. -/
theorem id_ne_last {told : List ToldCall} (hnodup : (told.map ToldCall.id).Nodup) {k : ℕ}
    {heard : ToldCall} (hk : told[k]? = some heard) (hlast : k + 1 < told.length) :
    heard.id ≠ (told.map ToldCall.id).getLast?.getD "" := by
  intro heq
  have hlength : (told.map ToldCall.id).length = told.length := List.length_map ..
  have hkth : (told.map ToldCall.id)[k]? = some heard.id := by
    rw [List.getElem?_map, hk, Option.map_some]
  have hend : (told.map ToldCall.id)[told.length - 1]? = some heard.id := by
    rw [heq, List.getLast?_eq_getElem?, hlength, List.getElem?_eq_getElem (by omega),
      Option.getD_some]
  have hsame := (List.getElem?_inj (by omega) hnodup).mp (hkth.trans hend.symm)
  omega

/-- The ids of the output only grow. -/
theorem nodup_of_assemble (hnodup : ((calls names items').map ToldCall.id).Nodup)
    (hstep : assemble items e = some items') : ((calls names items).map ToldCall.id).Nodup := by
  obtain ⟨hitems, -⟩ | ⟨id, name, hitems, -⟩ |
    ⟨i, delta, before, call, after, rfl, hcalls, hitems, -⟩ := assemble_calls names {} hstep
  · rwa [← hitems]
  · rw [hitems, List.map_append] at hnodup
    exact hnodup.of_append_left
  · rw [hcalls]
    rw [hitems] at hnodup
    simpa using hnodup

theorem exists_of_not_addressed (h : ¬ Addressed items e) :
    ∃ i delta, e = .argumentsDelta i delta ∧ delta ≠ "" ∧
      (items.drop (i + 1)).any OutputItem.isCall ≠ false := by
  cases e with
  | argumentsDelta i delta =>
    obtain ⟨hdelta, hlater⟩ := not_or.mp h
    exact ⟨i, delta, rfl, hdelta, hlater⟩
  | _ => exact absurd trivial h

/-- A fragment that is not the last call's own is missing from its call. -/
theorem Heard.lags (h : Heard names items t) (hmisplaced : ¬ Addressed items e)
    (hstep : assemble items e = some items')
    (hnodup : ((calls names items').map ToldCall.id).Nodup) :
    Lags names items' (e.told names t) := by
  have hnodup' := nodup_of_assemble hnodup hstep
  obtain ⟨i, delta, rfl, hdelta, hlater⟩ := exists_of_not_addressed hmisplaced
  obtain ⟨before, call, after, hcalls, hitems, hafter⟩ := assemble_arguments names hstep
  have htold : t.calls = before ++ call :: after := by
    rw [h, foldl_hear_of_nodup (by simpa using hnodup'), hcalls, List.nil_append]
  have hopened : after ≠ [] := by
    rw [hafter]
    exact fun hnil => hlater ((any_isCall_eq_false_iff names _).mpr hnil)
  have hlength := List.length_pos_iff.mpr hopened
  have hkth : t.calls[before.length]? = some call := by simp [htold]
  have hlast : before.length + 1 < t.calls.length := by
    rw [htold]
    simp only [List.length_append, List.length_cons]
    omega
  have hne := id_ne_last (by rw [h.ids]; exact hnodup') hkth hlast
  refine ⟨?_, before.length, { call with arguments := call.arguments ++ delta }, call, ?_, ?_,
    ?_, ?_⟩
  · simp only [Sent.told, Told.map_id_pushArguments]
    rw [htold, hitems]
    simp
  · simp [hitems]
  · exact getElem?_pushArguments_of_ne hkth hne
  · have hpos : delta.utf8ByteSize ≠ 0 := mt String.utf8ByteSize_eq_zero_iff.mp hdelta
    rw [String.utf8ByteSize_append]
    omega
  · simpa only [Sent.told, Told.length_pushArguments] using hlast

/-- A call that was told too little is never told the rest. -/
theorem Lags.step (h : Lags names items t) (hstep : assemble items e = some items')
    (hnodup : ((calls names items').map ToldCall.id).Nodup) :
    Lags names items' (e.told names t) := by
  have hnodup' := nodup_of_assemble hnodup hstep
  obtain ⟨hids, k, call, heard, hcall, hheard, hless, hlast⟩ := h
  obtain ⟨hitems, htold⟩ | ⟨id, name, hitems, htold⟩ |
    ⟨i, delta, before, own, after, rfl, hcalls, hitems, -⟩ := assemble_calls names t hstep
  · refine ⟨?_, k, call, heard, ?_, ?_, hless, ?_⟩
    · rw [hitems, htold, hids]
    · rw [hitems, hcall]
    · rw [htold, hheard]
    · rwa [htold]
  · refine ⟨?_, k, call, heard, ?_, ?_, hless, ?_⟩
    · rw [hitems, htold, List.map_append, List.map_append, hids]
    · rw [hitems, List.getElem?_append_left (List.getElem?_eq_some_iff.mp hcall).1, hcall]
    · rw [htold, List.getElem?_append_left (List.getElem?_eq_some_iff.mp hheard).1, hheard]
    · rw [htold, List.length_append]
      omega
  · have hne := id_ne_last (by rw [hids]; exact hnodup') hheard hlast
    have hgrown : ∃ call', (calls names items')[k]? = some call' ∧
        call.arguments.utf8ByteSize ≤ call'.arguments.utf8ByteSize := by
      rw [hcalls] at hcall
      rw [hitems]
      by_cases hk : k = before.length
      · subst hk
        refine ⟨{ own with arguments := own.arguments ++ delta }, by simp, ?_⟩
        obtain rfl : own = call := by simpa using hcall
        rw [String.utf8ByteSize_append]
        omega
      · refine ⟨call, ?_, le_rfl⟩
        rw [← hcall]
        exact getElem?_append_cons_of_ne before _ own after hk
    obtain ⟨call', hcall', hle⟩ := hgrown
    refine ⟨?_, k, call', heard, hcall', getElem?_pushArguments_of_ne hheard hne, by omega, ?_⟩
    · simp only [Sent.told, Told.map_id_pushArguments]
      rw [hids, hcalls, hitems]
      simp
    · simpa only [Sent.told, Told.length_pushArguments] using hlast

/-- Where the ids are distinct, some call lags. -/
def Behind (names : FunctionNameMap) (items : List OutputItem) (t : Told) : Prop :=
  ((calls names items).map ToldCall.id).Nodup → Lags names items t

end Lags

end OpenAIGateway.Responses
