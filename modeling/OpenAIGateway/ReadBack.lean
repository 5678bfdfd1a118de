import OpenAIGateway.ClientStream
import Mathlib.Data.List.Nodup

/-!
A rendered stream read back. Every frame is printed, parsed by a dialect's own
reader, and its events are folded; what the events tell is the answer's text,
thinking, calls, usage and stop reason, and the accumulator holds the same.
-/

set_option linter.all false

namespace OpenAIGateway

/-- serde_json's printer and parser. -/
structure Serde where
  toString : Json → String
  fromStr : String → Option Json

/-- The text of each frame reads as the frame's value, and `[DONE]` is not JSON. -/
structure Serde.Reads (serde : Serde) (frames : List Frame) : Prop where
  back : ∀ f ∈ frames, serde.fromStr (serde.toString f.data) = some f.data
  done : serde.fromStr "[DONE]" = none

/-- What a reader has folded so far: its accumulator, and the events it was given. -/
structure Reading where
  acc : StreamAccumulator := {}
  events : List StreamEvent := []

namespace Reading

/-- Fold the events of one payload. -/
def observe (r : Reading) (acc : StreamAccumulator) (events : List StreamEvent) : Reading where
  acc := events.foldl StreamAccumulator.observe acc
  events := r.events ++ events

def payload (parse : ParseEvent) (r : Reading) (p : String) : Reading :=
  match parse p r.acc with
  | none => r
  | some (acc, events) => r.observe acc events

/-- Read the frames of a stream, each as the text it is sent as. -/
def frames (serde : Serde) (parse : ParseEvent) (r : Reading) (fs : List Frame) : Reading :=
  fs.foldl (fun r f => r.payload parse (serde.toString f.data)) r

end Reading

/-- What folding events leaves as it was. -/
theorem foldl_observe_kept (acc : StreamAccumulator) (events : List StreamEvent) :
    (events.foldl StreamAccumulator.observe acc).sawRefusal = acc.sawRefusal ∧
      (events.foldl StreamAccumulator.observe acc).functionNames = acc.functionNames ∧
      (events.foldl StreamAccumulator.observe acc).unparsed = acc.unparsed := by
  induction events generalizing acc with
  | nil => exact ⟨rfl, rfl, rfl⟩
  | cons e events ih =>
    obtain ⟨hrefusal, hnames, hparsed⟩ := ih (acc.observe e)
    have hstep : (acc.observe e).sawRefusal = acc.sawRefusal ∧
        (acc.observe e).functionNames = acc.functionNames ∧
        (acc.observe e).unparsed = acc.unparsed := by
      cases e <;> exact ⟨rfl, rfl, rfl⟩
    exact ⟨hrefusal.trans hstep.1, hnames.trans hstep.2.1, hparsed.trans hstep.2.2⟩

structure ToldCall where
  id : String
  name : String
  arguments : String
  deriving DecidableEq, Repr

/-- Append a fragment to the first call with an id. -/
def pushArguments (id fragment : String) : List ToldCall → List ToldCall
  | [] => []
  | call :: rest =>
    if call.id = id then { call with arguments := call.arguments ++ fragment } :: rest
    else call :: pushArguments id fragment rest

/-- What a sequence of events tells. -/
structure Told where
  text : String := ""
  thinking : String := ""
  calls : List ToldCall := []
  usage : Usage := {}
  stop : Option StopReason := none
  deriving DecidableEq, Repr

namespace Told

def tell (t : Told) : StreamEvent → Told
  | .start _ usage | .usageUpdate usage => { t with usage := t.usage.merge usage }
  | .textDelta text => { t with text := t.text ++ text }
  | .thinkingDelta text => { t with thinking := t.thinking ++ text }
  | .toolUseStart id name => { t with calls := t.calls ++ [⟨id, name, ""⟩] }
  | .toolUseDelta id partialJson => { t with calls := pushArguments id partialJson t.calls }
  | .toolUseEnd _ => t
  | .stop reason usage => { t with usage := t.usage.merge usage, stop := some reason }
  | .error _ => t

def tellAll (t : Told) (events : List StreamEvent) : Told := events.foldl tell t

/-- What the events of a whole answer tell. -/
def of (events : List StreamEvent) : Told := tellAll {} events

theorem of_append (xs ys : List StreamEvent) : of (xs ++ ys) = (of xs).tellAll ys :=
  List.foldl_append

/-- The accumulator holds what was told: the lengths of the texts, the arguments
of every call, the usage and the stop reason. -/
structure Agrees (t : Told) (acc : StreamAccumulator) : Prop where
  textLen : acc.textLen = min (t.text.utf8ByteSize + t.thinking.utf8ByteSize) u64Max
  toolCalls : acc.toolCalls = min t.calls.length u64Max
  toolBuffers : acc.toolBuffers = t.calls.map (fun call => (call.id, call.arguments))
  usage : acc.usage = t.usage
  stopReason : acc.stopReason = t.stop

theorem map_pushArguments (id fragment : String) (calls : List ToldCall) :
    (pushArguments id fragment calls).map (fun call => (call.id, call.arguments)) =
      pushFragment id fragment (calls.map (fun call => (call.id, call.arguments))) := by
  induction calls with
  | nil => rfl
  | cons call rest ih =>
    unfold pushArguments
    by_cases hid : call.id = id
    · simp [pushFragment, hid]
    · simp [pushFragment, hid, ih]

theorem length_pushArguments (id fragment : String) (calls : List ToldCall) :
    (pushArguments id fragment calls).length = calls.length := by
  induction calls with
  | nil => rfl
  | cons call rest ih =>
    unfold pushArguments
    by_cases hid : call.id = id
    · rw [if_pos hid, List.length_cons, List.length_cons]
    · rw [if_neg hid, List.length_cons, List.length_cons, ih]

theorem Agrees.observe {t : Told} {acc : StreamAccumulator} (h : Agrees t acc) (e : StreamEvent) :
    Agrees (t.tell e) (acc.observe e) := by
  cases e with
  | start model usage =>
    refine ⟨h.textLen, h.toolCalls, h.toolBuffers, ?_, h.stopReason⟩
    simp only [tell, StreamAccumulator.observe, h.usage]
  | textDelta text =>
    refine ⟨?_, h.toolCalls, h.toolBuffers, h.usage, h.stopReason⟩
    simp only [tell, StreamAccumulator.observe, saturatingAdd, h.textLen,
      String.utf8ByteSize_append]
    omega
  | thinkingDelta text =>
    refine ⟨?_, h.toolCalls, h.toolBuffers, h.usage, h.stopReason⟩
    simp only [tell, StreamAccumulator.observe, saturatingAdd, h.textLen,
      String.utf8ByteSize_append]
    omega
  | toolUseStart id name =>
    refine ⟨h.textLen, ?_, ?_, h.usage, h.stopReason⟩
    · simp only [tell, StreamAccumulator.observe, saturatingAdd, h.toolCalls, List.length_append,
        List.length_singleton]
      omega
    · simp only [tell, StreamAccumulator.observe, h.toolBuffers, List.map_append, List.map_cons,
        List.map_nil]
  | toolUseDelta id partialJson =>
    refine ⟨h.textLen, ?_, ?_, h.usage, h.stopReason⟩
    · simp only [tell, StreamAccumulator.observe, h.toolCalls, length_pushArguments]
    · simp only [tell, StreamAccumulator.observe, h.toolBuffers, map_pushArguments]
  | toolUseEnd id => exact ⟨h.textLen, h.toolCalls, h.toolBuffers, h.usage, h.stopReason⟩
  | usageUpdate usage =>
    refine ⟨h.textLen, h.toolCalls, h.toolBuffers, ?_, h.stopReason⟩
    simp only [tell, StreamAccumulator.observe, h.usage]
  | stop reason usage =>
    refine ⟨h.textLen, h.toolCalls, h.toolBuffers, ?_, rfl⟩
    simp only [tell, StreamAccumulator.observe, h.usage]
  | error message => exact h

theorem Agrees.foldl {t : Told} {acc : StreamAccumulator} (h : Agrees t acc)
    (events : List StreamEvent) :
    Agrees (t.tellAll events) (events.foldl StreamAccumulator.observe acc) := by
  induction events generalizing t acc with
  | nil => exact h
  | cons e events ih => exact ih (h.observe e)

theorem Agrees.toolIds {t : Told} {acc : StreamAccumulator} (h : Agrees t acc) :
    acc.toolIds = t.calls.map ToldCall.id := by
  unfold StreamAccumulator.toolIds
  rw [h.toolBuffers, List.map_map]
  rfl

theorem Agrees.sawToolCall {t : Told} {acc : StreamAccumulator} (h : Agrees t acc) :
    acc.sawToolCall = !t.calls.isEmpty := by
  unfold StreamAccumulator.sawToolCall
  rw [h.toolCalls]
  cases t.calls with
  | nil => rfl
  | cons call rest =>
    have hpos : 0 < min (rest.length + 1) u64Max := by
      unfold u64Max
      omega
    exact decide_eq_true hpos

/-- Fragments do not change which calls there are. -/
theorem map_id_pushArguments (id fragment : String) (calls : List ToldCall) :
    (pushArguments id fragment calls).map ToldCall.id = calls.map ToldCall.id := by
  induction calls with
  | nil => rfl
  | cons call rest ih =>
    unfold pushArguments
    by_cases hid : call.id = id
    · rw [if_pos hid, List.map_cons, List.map_cons]
    · rw [if_neg hid, List.map_cons, List.map_cons, ih]

theorem pushArguments_empty (id : String) (calls : List ToldCall) :
    pushArguments id "" calls = calls := by
  induction calls with
  | nil => rfl
  | cons call rest ih =>
    unfold pushArguments
    rw [ih, String.append_empty]
    exact ite_self _

/-- The calls that are told depend on no other thing that was. -/
theorem calls_tellAll {t u : Told} (h : t.calls = u.calls) (events : List StreamEvent) :
    (t.tellAll events).calls = (u.tellAll events).calls := by
  induction events generalizing t u with
  | nil => exact h
  | cons e events ih =>
    refine ih ?_
    cases e with
    | toolUseStart id name | toolUseDelta id partialJson => simp only [tell, h]
    | start model usage => exact h
    | textDelta text => exact h
    | thinkingDelta text => exact h
    | toolUseEnd id => exact h
    | usageUpdate usage => exact h
    | stop reason usage => exact h
    | error message => exact h

theorem tellAll_append (t : Told) (xs ys : List StreamEvent) :
    t.tellAll (xs ++ ys) = (t.tellAll xs).tellAll ys :=
  List.foldl_append

end Told

section Calls

/-- A call is told: opened, and its arguments appended to the first call with its id. -/
def hear (told : List ToldCall) (call : ToldCall) : List ToldCall :=
  pushArguments call.id call.arguments (told ++ [{ call with arguments := "" }])

theorem pushArguments_pushArguments (id a b : String) (told : List ToldCall) :
    pushArguments id b (pushArguments id a told) = pushArguments id (a ++ b) told := by
  induction told with
  | nil => rfl
  | cons call told ih =>
    by_cases hid : call.id = id
    · simp [pushArguments, hid, String.append_assoc]
    · simp [pushArguments, hid, ih]

/-- A fragment for a call that is there only at the end. -/
theorem pushArguments_append_of_notMem {id : String} (delta : String) {told : List ToldCall}
    (h : id ∉ told.map ToldCall.id) (last : ToldCall) (hlast : last.id = id) :
    pushArguments id delta (told ++ [last]) =
      told ++ [{ last with arguments := last.arguments ++ delta }] := by
  induction told with
  | nil => simp [pushArguments, hlast]
  | cons call told ih =>
    rw [List.map_cons, List.mem_cons, not_or] at h
    simp [pushArguments, Ne.symm h.1, ih h.2]

theorem map_id_foldl_hear (cs told : List ToldCall) :
    (cs.foldl hear told).map ToldCall.id = told.map ToldCall.id ++ cs.map ToldCall.id := by
  induction cs generalizing told with
  | nil => simp
  | cons call cs ih =>
    rw [List.foldl_cons, ih, hear, Told.map_id_pushArguments]
    simp

/-- Calls with distinct ids are told as they are. -/
theorem foldl_hear_of_nodup {cs told : List ToldCall}
    (h : (told.map ToldCall.id ++ cs.map ToldCall.id).Nodup) :
    cs.foldl hear told = told ++ cs := by
  induction cs generalizing told with
  | nil => simp
  | cons call cs ih =>
    have hnew : call.id ∉ told.map ToldCall.id := by
      intro hmem
      exact (List.disjoint_of_nodup_append h) hmem (List.mem_cons_self ..)
    have hcall : hear told call = told ++ [call] := by
      unfold hear
      rw [pushArguments_append_of_notMem call.arguments hnew { call with arguments := "" } rfl]
      simp
    rw [List.foldl_cons, hcall, ih, List.append_assoc, List.singleton_append]
    simpa using h

end Calls

section Reads

/-- A reader that has read nothing, with the names of its request. -/
def unread (names : FunctionNameMap) : Reading where
  acc := { functionNames := names }

/-- A reader that was told `t`. -/
structure Reads (names : FunctionNameMap) (t : Told) (r : Reading) : Prop where
  told : Told.of r.events = t
  agrees : t.Agrees r.acc
  names : r.acc.functionNames = names
  parsed : r.acc.unparsed = false

theorem reads_unread (names : FunctionNameMap) : Reads names {} (unread names) where
  told := rfl
  agrees := ⟨rfl, rfl, rfl, rfl, rfl⟩
  names := rfl
  parsed := rfl

theorem Reads.observe {names : FunctionNameMap} {t : Told} {r : Reading} (h : Reads names t r)
    (events : List StreamEvent) :
    Reads names (t.tellAll events) (r.observe r.acc events) where
  told := by
    unfold Reading.observe
    rw [Told.of_append, h.told]
  agrees := h.agrees.foldl events
  names := (foldl_observe_kept r.acc events).2.1.trans h.names
  parsed := (foldl_observe_kept r.acc events).2.2.trans h.parsed

end Reads

end OpenAIGateway
