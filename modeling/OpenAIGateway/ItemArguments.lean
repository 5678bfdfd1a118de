import OpenAIGateway.ResponsesReaders
import OpenAIGateway.Transition

/-!
The arguments of the calls of a Responses stream. A call is opened when its item
is added, and the fragments that follow carry the item's id or its place in the
output; the reader gives every fragment to the call opened last.
-/

set_option linter.all false

namespace OpenAIGateway.Responses

open Transition

/-- What a payload says an output item is: its id, and its place in the output. -/
structure ItemKey where
  itemId : Option String
  outputIndex : Option ℕ
  deriving DecidableEq, Repr

/-- A fragment names the item whose id it carries; without an id, the item at its place. -/
def ItemKey.Names (fragment item : ItemKey) : Prop :=
  match fragment.itemId with
  | some id => item.itemId = some id
  | none => fragment.outputIndex.isSome ∧ item.outputIndex = fragment.outputIndex

instance (fragment item : ItemKey) : Decidable (fragment.Names item) :=
  match h : fragment.itemId with
  | some id => decidable_of_iff (item.itemId = some id) (by simp [ItemKey.Names, h])
  | none =>
    decidable_of_iff (fragment.outputIndex.isSome ∧ item.outputIndex = fragment.outputIndex)
      (by simp [ItemKey.Names, h])

/-- Two items that share neither an id nor a place. -/
def ItemKey.Apart (item other : ItemKey) : Prop :=
  (item.itemId = none ∨ item.itemId ≠ other.itemId) ∧
    (item.outputIndex = none ∨ item.outputIndex ≠ other.outputIndex)

instance (item other : ItemKey) : Decidable (item.Apart other) :=
  inferInstanceAs (Decidable (_ ∧ _))

theorem ItemKey.Apart.symm {item other : ItemKey} (h : item.Apart other) : other.Apart item := by
  unfold ItemKey.Apart at *
  grind

/-- A fragment names one item. -/
theorem ItemKey.Names.of_apart {fragment item other : ItemKey} (h : fragment.Names item)
    (hapart : item.Apart other) : ¬ fragment.Names other := by
  unfold ItemKey.Names ItemKey.Apart at *
  cases hid : fragment.itemId with
  | some id => grind
  | none => grind

/-- A function_call item, as its added event announces it. -/
structure OpenedItem where
  key : ItemKey
  callId : String
  deriving DecidableEq, Repr

structure ArgumentsDelta where
  key : ItemKey
  delta : String
  deriving DecidableEq, Repr

def opened? (v : Json) : Option OpenedItem :=
  if v["type"].asStr = some "response.output_item.added" ∧ isType "function_call" v["item"] then
    some { key := ⟨v["item"]["id"].asStr, v["output_index"].asU64⟩
           callId := v["item"]["call_id"].asStr.getD "" }
  else none

def argumentsDelta? (v : Json) : Option ArgumentsDelta :=
  if v["type"].asStr = some "response.function_call_arguments.delta" then
    some { key := ⟨v["item_id"].asStr, v["output_index"].asU64⟩
           delta := v["delta"].asStr.getD "" }
  else none

/-- An item not confused with another: neither its key nor its call id is the other's. -/
def OpenedItem.Apart (item other : OpenedItem) : Prop :=
  item.key.Apart other.key ∧ item.callId ≠ other.callId

instance (item other : OpenedItem) : Decidable (item.Apart other) :=
  inferInstanceAs (Decidable (_ ∧ _))

/-- The items of a stream whose events come in order: an item opens under a key and a call id of
its own, and a fragment names an item that has opened. -/
def Items.step (items : List OpenedItem) (v : Json) : Option (List OpenedItem) :=
  match opened? v, argumentsDelta? v with
  | some item, _ => if ∀ other ∈ items, other.Apart item then some (items ++ [item]) else none
  | none, some d => if ∃ item ∈ items, d.key.Names item.key then some items else none
  | none, none => some items

/-- A stream whose fragments each name one of its items; they come in any order. -/
def WellAddressed (vs : List Json) : Prop := (run Items.step [] vs).isSome

instance (vs : List Json) : Decidable (WellAddressed vs) := inferInstanceAs (Decidable (_ = true))

/-- The arguments that fragments carry for an item. -/
def argumentsFor (item : ItemKey) (deltas : List ArgumentsDelta) : String :=
  String.join ((deltas.filter (fun d => d.key.Names item)).map ArgumentsDelta.delta)

/-- The accumulator after the payloads of a stream. -/
def accumulated (fromStr : String → Option Json) (names : FunctionNameMap)
    (payloads : List String) : StreamAccumulator :=
  (payloads.foldl (Reading.payload (parseEvent fromStr)) (unread names)).acc

/-- Every call's buffer holds what the stream carried for its own item. -/
def ArgumentsAttributed (fromStr : String → Option Json) (names : FunctionNameMap)
    (payloads : List String) : Prop :=
  let vs := payloads.filterMap fromStr
  ∀ item ∈ vs.filterMap opened?,
    (accumulated fromStr names payloads).toolBuffers.lookup item.callId =
      some (argumentsFor item.key (vs.filterMap argumentsDelta?))

/-- A fragment that is not empty is for the item that opened last. -/
def ForLastOpened (items : List OpenedItem) (v : Json) : Prop :=
  ∀ d ∈ argumentsDelta? v, d.delta = "" ∨ ∃ item ∈ items.getLast?, d.key.Names item.key

instance (items : List OpenedItem) (v : Json) : Decidable (ForLastOpened items v) :=
  inferInstanceAs (Decidable (∀ d ∈ argumentsDelta? v, _))

section Fold

/-- Fold the events of a parsed payload. -/
def readValue (acc : StreamAccumulator) (v : Json) : StreamAccumulator :=
  (payloadEvents v acc).foldl StreamAccumulator.observe acc

theorem accumulated_eq (fromStr : String → Option Json) (names : FunctionNameMap)
    (payloads : List String) :
    accumulated fromStr names payloads =
      (payloads.filterMap fromStr).foldl readValue (unread names).acc := by
  unfold accumulated
  generalize unread names = r
  induction payloads generalizing r with
  | nil => rfl
  | cons p payloads ih =>
    rw [List.foldl_cons, ih]
    cases hv : fromStr p with
    | none =>
      have hskip : r.payload (parseEvent fromStr) p = r := by
        unfold Reading.payload parseEvent
        rw [hv]
        rfl
      rw [hskip, List.filterMap_cons_none hv]
    | some v =>
      rw [payload_eq hv, List.filterMap_cons_some hv, List.foldl_cons]
      rfl

theorem readValue_opened {v : Json} {item : OpenedItem} (h : opened? v = some item)
    (acc : StreamAccumulator) :
    argumentsDelta? v = none ∧
      (readValue acc v).toolBuffers = acc.toolBuffers ++ [(item.callId, "")] := by
  unfold opened? at h
  split at h
  · rename_i hadded
    obtain ⟨htype, hcall⟩ := hadded
    obtain rfl := Option.some.inj h
    constructor
    · simp [argumentsDelta?, htype]
    · simp [readValue, payloadEvents, htype, hcall, StreamAccumulator.observe]
  · exact absurd h (by simp)

theorem readValue_argumentsDelta {v : Json} {d : ArgumentsDelta} (h : argumentsDelta? v = some d)
    (acc : StreamAccumulator) :
    opened? v = none ∧ (readValue acc v).toolBuffers =
      pushFragment (acc.currentToolId.getD "") d.delta acc.toolBuffers := by
  unfold argumentsDelta? at h
  split at h
  · rename_i htype
    obtain rfl := Option.some.inj h
    constructor
    · simp [opened?, htype]
    · simp [readValue, payloadEvents, htype, StreamAccumulator.observe]
  · exact absurd h (by simp)

/-- Every other payload leaves the buffers as they are. -/
theorem readValue_other {v : Json} (hopened : opened? v = none) (hdelta : argumentsDelta? v = none)
    (acc : StreamAccumulator) : (readValue acc v).toolBuffers = acc.toolBuffers := by
  have hsome : ∀ {kind : String}, v["type"].asStr.getD "" = kind → kind ≠ "" →
      v["type"].asStr = some kind := by
    intro kind hkind hne
    cases htype : v["type"].asStr with
    | none => exact absurd (by simpa [htype] using hkind.symm) hne
    | some word => simpa [htype] using hkind
  unfold readValue payloadEvents
  split
  · rfl
  · rfl
  · rfl
  · rfl
  · rename_i hadded
    split
    · rename_i hcall
      simp [opened?, hsome hadded (by decide), hcall] at hopened
    · rfl
  · rename_i harguments
    simp [argumentsDelta?, hsome harguments (by decide)] at hdelta
  · split <;> rfl
  · rfl
  · rfl
  · rfl
  · rfl
  · rfl

end Fold

section Buffers

theorem pushFragment_append_of_notMem {id : String} {buffers : List (String × String)}
    (h : id ∉ buffers.map Prod.fst) (fragment buf : String) :
    pushFragment id fragment (buffers ++ [(id, buf)]) = buffers ++ [(id, buf ++ fragment)] := by
  induction buffers with
  | nil => simp [pushFragment]
  | cons entry buffers ih =>
    rw [List.map_cons, List.mem_cons, not_or] at h
    simp [pushFragment, Ne.symm h.1, ih h.2]

theorem pushFragment_empty (id : String) (buffers : List (String × String)) :
    pushFragment id "" buffers = buffers := by
  induction buffers with
  | nil => rfl
  | cons entry buffers ih =>
    unfold pushFragment
    rw [ih, String.append_empty]
    exact ite_self _

theorem map_fst_pushFragment (id fragment : String) (buffers : List (String × String)) :
    (pushFragment id fragment buffers).map Prod.fst = buffers.map Prod.fst := by
  induction buffers with
  | nil => rfl
  | cons entry buffers ih =>
    unfold pushFragment
    split
    · rfl
    · rw [List.map_cons, List.map_cons, ih]

theorem lookup_pushFragment_of_ne {id other : String} (h : other ≠ id) (fragment : String)
    (buffers : List (String × String)) :
    (pushFragment id fragment buffers).lookup other = buffers.lookup other := by
  induction buffers with
  | nil => rfl
  | cons entry buffers ih =>
    unfold pushFragment
    split
    · rename_i hid
      have hne : (other == entry.1) = false := by
        rw [hid]
        exact beq_false_of_ne h
      rw [List.lookup_cons, List.lookup_cons, hne]
    · rw [List.lookup_cons, List.lookup_cons, ih]

/-- A table made from items with distinct keys holds each item's own value. -/
theorem lookup_map_of_mem {α : Type*} {key value : α → String} {items : List α}
    (hapart : items.Pairwise (fun a b => key a ≠ key b)) {item : α} (hmem : item ∈ items) :
    (items.map (fun a => (key a, value a))).lookup (key item) = some (value item) := by
  induction items with
  | nil => exact absurd hmem (List.not_mem_nil)
  | cons a items ih =>
    obtain ⟨hfirst, hrest⟩ := List.pairwise_cons.mp hapart
    rw [List.map_cons, List.lookup_cons]
    rcases List.mem_cons.mp hmem with rfl | hlater
    · rw [beq_self_eq_true]
    · rw [beq_false_of_ne (hfirst item hlater).symm]
      exact ih hrest hlater

end Buffers

section Deltas

variable (item : ItemKey) (deltas : List ArgumentsDelta)

theorem argumentsFor_append (d : ArgumentsDelta) :
    argumentsFor item (deltas ++ [d]) =
      argumentsFor item deltas ++ if d.key.Names item then d.delta else "" := by
  unfold argumentsFor
  rw [List.filter_append, List.map_append, String.join_append]
  split <;> simp [*]

theorem argumentsFor_eq_empty (h : ∀ d ∈ deltas, ¬ d.key.Names item) :
    argumentsFor item deltas = "" := by
  have hnone : deltas.filter (fun d => d.key.Names item) = [] := by
    rw [List.filter_eq_nil_iff]
    intro d hd
    simpa using h d hd
  unfold argumentsFor
  rw [hnone]
  rfl

end Deltas

section Run

variable {items items' : List OpenedItem} {v : Json}

/-- What one payload does to the items of a stream. -/
theorem step_cases (hstep : Items.step items v = some items') :
    (∃ item, opened? v = some item ∧ (∀ other ∈ items, other.Apart item) ∧
      items' = items ++ [item]) ∨
    (∃ d, opened? v = none ∧ argumentsDelta? v = some d ∧
      (∃ item ∈ items, d.key.Names item.key) ∧ items' = items) ∨
    (opened? v = none ∧ argumentsDelta? v = none ∧ items' = items) := by
  unfold Items.step at hstep
  cases hopened : opened? v with
  | some item =>
    simp only [hopened] at hstep
    split at hstep
    · rename_i hapart
      exact .inl ⟨item, rfl, hapart, (Option.some.inj hstep).symm⟩
    · exact absurd hstep (by simp)
  | none =>
    cases hdelta : argumentsDelta? v with
    | some d =>
      simp only [hopened, hdelta] at hstep
      split at hstep
      · rename_i hnamed
        exact .inr (.inl ⟨d, rfl, rfl, hnamed, (Option.some.inj hstep).symm⟩)
      · exact absurd hstep (by simp)
    | none =>
      simp only [hopened, hdelta] at hstep
      exact .inr (.inr ⟨rfl, rfl, (Option.some.inj hstep).symm⟩)

/-- The items of a stream are those it opened. -/
theorem items_run {vs : List Json} (hrun : run Items.step items vs = some items') :
    items' = items ++ vs.filterMap opened? := by
  induction vs generalizing items with
  | nil =>
    obtain rfl : items = items' := Option.some.inj hrun
    simp
  | cons v vs ih =>
    obtain ⟨next, hnext, hrest⟩ := Option.bind_eq_some_iff.mp hrun
    rw [ih hrest]
    rcases step_cases hnext with ⟨item, hopened, -, rfl⟩ | ⟨d, hopened, -, -, rfl⟩ |
      ⟨hopened, -, rfl⟩
    · rw [List.filterMap_cons_some hopened, List.append_assoc, List.singleton_append]
    · rw [List.filterMap_cons_none hopened]
    · rw [List.filterMap_cons_none hopened]

/-- The accumulator with the fragments that were read into it. -/
structure Tracked where
  acc : StreamAccumulator
  deltas : List ArgumentsDelta := []

def Tracked.read (t : Tracked) (v : Json) : Tracked where
  acc := readValue t.acc v
  deltas := t.deltas ++ (argumentsDelta? v).toList

theorem Tracked.foldl_read (t : Tracked) (vs : List Json) :
    vs.foldl Tracked.read t =
      { acc := vs.foldl readValue t.acc, deltas := t.deltas ++ vs.filterMap argumentsDelta? } := by
  induction vs generalizing t with
  | nil => simp
  | cons v vs ih =>
    rw [List.foldl_cons, ih, List.foldl_cons, List.filterMap_cons]
    cases hdelta : argumentsDelta? v <;> simp [Tracked.read, hdelta]

/-- Every item's buffer holds what came for it. -/
structure Attributes (items : List OpenedItem) (t : Tracked) : Prop where
  buffers : t.acc.toolBuffers =
    items.map (fun item => (item.callId, argumentsFor item.key t.deltas))
  apart : items.Pairwise OpenedItem.Apart
  named : ∀ d ∈ t.deltas, ∃ item ∈ items, d.key.Names item.key

/-- An item that is no longer the last, whose buffer is short of what came for it. -/
structure Short (items : List OpenedItem) (t : Tracked) : Prop where
  ids : t.acc.toolIds = items.map OpenedItem.callId
  apart : items.Pairwise OpenedItem.Apart
  item : ∃ earlier item later, items = earlier ++ item :: later ∧ later ≠ [] ∧
    ∃ buf, t.acc.toolBuffers.lookup item.callId = some buf ∧
      buf.length < (argumentsFor item.key t.deltas).length

theorem currentToolId_eq {acc : StreamAccumulator}
    (hids : acc.toolIds = items.map OpenedItem.callId) :
    acc.currentToolId = items.getLast?.map OpenedItem.callId := by
  rw [← List.getLast?_map, ← hids, StreamAccumulator.toolIds, List.getLast?_map]
  rfl

variable {t : Tracked}

theorem Attributes.ids (h : Attributes items t) :
    t.acc.toolIds = items.map OpenedItem.callId := by
  rw [StreamAccumulator.toolIds, h.buffers, List.map_map]
  rfl

theorem pairwise_concat {item : OpenedItem} (hapart : items.Pairwise OpenedItem.Apart)
    (hnew : ∀ other ∈ items, other.Apart item) :
    (items ++ [item]).Pairwise OpenedItem.Apart := by
  rw [List.pairwise_append]
  refine ⟨hapart, List.pairwise_singleton .., ?_⟩
  intro other hother item' hitem'
  obtain rfl := List.mem_singleton.mp hitem'
  exact hnew other hother

theorem read_deltas_of_none (hdelta : argumentsDelta? v = none) :
    (t.read v).deltas = t.deltas := by
  simp [Tracked.read, hdelta]

theorem Attributes.opened (h : Attributes items t) {item : OpenedItem}
    (hopened : opened? v = some item) (hnew : ∀ other ∈ items, other.Apart item) :
    Attributes (items ++ [item]) (t.read v) := by
  obtain ⟨hdelta, hbuffers⟩ := readValue_opened hopened t.acc
  have hdeltas : (t.read v).deltas = t.deltas := read_deltas_of_none hdelta
  have hnone : argumentsFor item.key t.deltas = "" := by
    apply argumentsFor_eq_empty
    intro d hd
    obtain ⟨other, hother, hnames⟩ := h.named d hd
    exact hnames.of_apart (hnew other hother).1
  refine ⟨?_, pairwise_concat h.apart hnew, ?_⟩
  · rw [hdeltas, List.map_append, List.map_singleton, hnone, ← h.buffers]
    exact hbuffers
  · intro d hd
    rw [hdeltas] at hd
    obtain ⟨other, hother, hnames⟩ := h.named d hd
    exact ⟨other, List.mem_append_left _ hother, hnames⟩

theorem Attributes.other (h : Attributes items t) (hopened : opened? v = none)
    (hdelta : argumentsDelta? v = none) : Attributes items (t.read v) := by
  refine ⟨?_, h.apart, ?_⟩
  · rw [read_deltas_of_none hdelta, ← h.buffers]
    exact readValue_other hopened hdelta t.acc
  · rw [read_deltas_of_none hdelta]
    exact h.named

section Delta

variable {d : ArgumentsDelta}

theorem read_deltas (hdelta : argumentsDelta? v = some d) :
    (t.read v).deltas = t.deltas ++ [d] := by
  simp [Tracked.read, hdelta]

theorem read_ids (hdelta : argumentsDelta? v = some d) : (t.read v).acc.toolIds = t.acc.toolIds := by
  have hread : (t.read v).acc.toolBuffers = _ := (readValue_argumentsDelta hdelta t.acc).2
  unfold StreamAccumulator.toolIds
  rw [hread, map_fst_pushFragment]

theorem named_append (hnamed : ∀ d ∈ t.deltas, ∃ item ∈ items, d.key.Names item.key)
    (hdelta : argumentsDelta? v = some d) (hnames : ∃ item ∈ items, d.key.Names item.key) :
    ∀ d ∈ (t.read v).deltas, ∃ item ∈ items, d.key.Names item.key := by
  intro d' hd'
  rw [read_deltas hdelta] at hd'
  rcases List.mem_append.mp hd' with hbefore | hlast
  · exact hnamed d' hbefore
  · obtain rfl := List.mem_singleton.mp hlast
    exact hnames

/-- An empty fragment changes no buffer, and nothing that came for an item. -/
theorem Attributes.empty (h : Attributes items t) (hdelta : argumentsDelta? v = some d)
    (hnames : ∃ item ∈ items, d.key.Names item.key) (hempty : d.delta = "") :
    Attributes items (t.read v) := by
  refine ⟨?_, h.apart, named_append h.named hdelta hnames⟩
  have hread := (readValue_argumentsDelta hdelta t.acc).2
  rw [hempty, pushFragment_empty, h.buffers] at hread
  rw [read_deltas hdelta]
  refine hread.trans (List.map_congr_left ?_)
  intro item _
  rw [argumentsFor_append, hempty, ite_self, String.append_empty]

/-- A fragment for the item that opened last goes into that item's buffer. -/
theorem Attributes.last (h : Attributes items t) (hdelta : argumentsDelta? v = some d)
    {last : OpenedItem} (hlast : items.getLast? = some last) (hnames : d.key.Names last.key) :
    Attributes items (t.read v) := by
  have hmem : last ∈ items := List.mem_of_getLast? hlast
  refine ⟨?_, h.apart, named_append h.named hdelta ⟨last, hmem, hnames⟩⟩
  obtain ⟨earlier, rfl⟩ := List.getLast?_eq_some_iff.mp hlast
  obtain ⟨-, -, hapart⟩ := List.pairwise_append.mp h.apart
  have hread := (readValue_argumentsDelta hdelta t.acc).2
  rw [currentToolId_eq h.ids, hlast, h.buffers, List.map_append, List.map_singleton] at hread
  have hnew : last.callId ∉ (earlier.map (fun item =>
      (item.callId, argumentsFor item.key t.deltas))).map Prod.fst := by
    rw [List.map_map]
    intro hid
    obtain ⟨other, hother, hsame⟩ := List.mem_map.mp hid
    exact (hapart other hother last (List.mem_singleton_self _)).2 hsame
  have hothers : ∀ item ∈ earlier,
      argumentsFor item.key (t.deltas ++ [d]) = argumentsFor item.key t.deltas := by
    intro item hitem
    have hnot := hnames.of_apart (hapart item hitem last (List.mem_singleton_self _)).1.symm
    rw [argumentsFor_append, if_neg hnot, String.append_empty]
  rw [read_deltas hdelta, List.map_append, List.map_singleton, argumentsFor_append, if_pos hnames]
  refine hread.trans ((pushFragment_append_of_notMem hnew _ _).trans ?_)
  congr 1
  apply List.map_congr_left
  intro item hitem
  rw [hothers item hitem]

/-- The buffer of an item that is no longer the last takes no fragment. -/
theorem lookup_read_of_later {earlier later : List OpenedItem} {item : OpenedItem}
    (hids : t.acc.toolIds = items.map OpenedItem.callId) (hapart : items.Pairwise OpenedItem.Apart)
    (hdelta : argumentsDelta? v = some d) (hitems : items = earlier ++ item :: later)
    (hlater : later ≠ []) :
    (t.read v).acc.toolBuffers.lookup item.callId = t.acc.toolBuffers.lookup item.callId := by
  have hread : (t.read v).acc.toolBuffers = _ := (readValue_argumentsDelta hdelta t.acc).2
  obtain ⟨front, last, rfl⟩ := (List.eq_nil_or_concat' later).resolve_left hlater
  have hlast : items.getLast? = some last := by
    rw [hitems, ← List.cons_append, ← List.append_assoc, List.getLast?_concat]
  have hother : item.callId ≠ last.callId := by
    rw [hitems] at hapart
    have hrest := (List.pairwise_append.mp hapart).2.1
    exact ((List.pairwise_cons.mp hrest).1 last (by simp)).2
  rw [hread, currentToolId_eq hids, hlast]
  exact lookup_pushFragment_of_ne hother d.delta t.acc.toolBuffers

/-- A fragment for an item that is no longer the last leaves that item's buffer short. -/
theorem Attributes.short (h : Attributes items t) (hdelta : argumentsDelta? v = some d)
    {item : OpenedItem} (hmem : item ∈ items) (hnames : d.key.Names item.key)
    (hne : d.delta ≠ "") (hlast : items.getLast? ≠ some item) : Short items (t.read v) := by
  obtain ⟨earlier, later, hitems⟩ := List.append_of_mem hmem
  have hlater : later ≠ [] := by
    rintro rfl
    exact hlast (by simp [hitems])
  have hapart : items.Pairwise (fun a b => a.callId ≠ b.callId) := h.apart.imp And.right
  refine ⟨(read_ids hdelta).trans h.ids, h.apart, earlier, item, later, hitems, hlater,
    argumentsFor item.key t.deltas, ?_, ?_⟩
  · rw [lookup_read_of_later h.ids h.apart hdelta hitems hlater, h.buffers]
    exact lookup_map_of_mem hapart hmem
  · rw [read_deltas hdelta, argumentsFor_append, if_pos hnames, String.length_append]
    have hlength : 0 < d.delta.length := by
      apply Nat.pos_of_ne_zero
      exact fun hzero => hne (String.length_eq_zero_iff.mp hzero)
    omega

end Delta

theorem Short.step (h : Short items t) (hstep : Items.step items v = some items') :
    Short items' (t.read v) := by
  obtain ⟨hids, hapart, earlier, item, later, hitems, hlater, buf, hbuf, hshort⟩ := h
  rcases step_cases hstep with ⟨new, hopened, hnew, rfl⟩ | ⟨d, -, hdelta, -, rfl⟩ |
    ⟨hopened, hdelta, rfl⟩
  · obtain ⟨hdelta, hread⟩ := readValue_opened hopened t.acc
    have hbuffers : (t.read v).acc.toolBuffers = _ := hread
    refine ⟨?_, pairwise_concat hapart hnew, earlier, item, later ++ [new], ?_, by simp,
      buf, ?_, ?_⟩
    · unfold StreamAccumulator.toolIds at *
      rw [hbuffers, List.map_append, List.map_append, hids]
      rfl
    · rw [hitems, List.append_assoc, List.cons_append]
    · rw [hbuffers, List.lookup_append, hbuf, Option.some_or]
    · rw [read_deltas_of_none hdelta]
      exact hshort
  · refine ⟨(read_ids hdelta).trans hids, hapart, earlier, item, later, hitems, hlater, buf, ?_, ?_⟩
    · rw [lookup_read_of_later hids hapart hdelta hitems hlater, hbuf]
    · rw [read_deltas hdelta, argumentsFor_append, String.length_append]
      omega
  · have hbuffers : (t.read v).acc.toolBuffers = t.acc.toolBuffers :=
      readValue_other hopened hdelta t.acc
    refine ⟨?_, hapart, earlier, item, later, hitems, hlater, buf, ?_, ?_⟩
    · unfold StreamAccumulator.toolIds at *
      rw [hbuffers, hids]
    · rw [hbuffers, hbuf]
    · rw [read_deltas_of_none hdelta]
      exact hshort

theorem Attributes.step (h : Attributes items t) (hlast : ForLastOpened items v)
    (hstep : Items.step items v = some items') : Attributes items' (t.read v) := by
  rcases step_cases hstep with ⟨item, hopened, hnew, rfl⟩ | ⟨d, -, hdelta, hnames, rfl⟩ |
    ⟨hopened, hdelta, rfl⟩
  · exact h.opened hopened hnew
  · rcases hlast d hdelta with hempty | ⟨last, hmem, hnames'⟩
    · exact h.empty hdelta hnames hempty
    · exact h.last hdelta hmem hnames'
  · exact h.other hopened hdelta

theorem Attributes.stray (h : Attributes items t) (hlast : ¬ ForLastOpened items v)
    (hstep : Items.step items v = some items') : Short items' (t.read v) := by
  unfold ForLastOpened at hlast
  push Not at hlast
  obtain ⟨d, hdelta, hne, hothers⟩ := hlast
  rcases step_cases hstep with ⟨item, hopened, -, rfl⟩ | ⟨d', -, hdelta', hnames, rfl⟩ |
    ⟨-, hnone, rfl⟩
  · have hnone := (readValue_opened hopened t.acc).1
    exact absurd (hnone.symm.trans hdelta) (by simp)
  · obtain rfl : d' = d := Option.some.inj (hdelta'.symm.trans hdelta)
    obtain ⟨item, hmem, hnames⟩ := hnames
    exact h.short hdelta hmem hnames hne (fun heq => hothers item heq hnames)
  · exact absurd (hnone.symm.trans hdelta) (by simp)

end Run

section Attribution

variable {fromStr : String → Option Json} {names : FunctionNameMap} {payloads : List String}

theorem attributes_unread (names : FunctionNameMap) : Attributes [] { acc := (unread names).acc } where
  buffers := rfl
  apart := .nil
  named := fun _ h => absurd h (List.not_mem_nil)

/-- Arguments reach their own calls exactly when every fragment is for the item opened last. -/
theorem arguments_attributed_iff (fromStr : String → Option Json) (names : FunctionNameMap)
    (payloads : List String) (h : WellAddressed (payloads.filterMap fromStr)) :
    ArgumentsAttributed fromStr names payloads ↔
      AllSteps Items.step ForLastOpened [] (payloads.filterMap fromStr) := by
  obtain ⟨items, hrun⟩ := Option.isSome_iff_exists.mp h
  have hitems := items_run hrun
  rw [List.nil_append] at hitems
  unfold ArgumentsAttributed
  rw [accumulated_eq]
  generalize payloads.filterMap fromStr = vs at *
  dsimp only
  have hread := Tracked.foldl_read { acc := (unread names).acc } vs
  rw [List.nil_append] at hread
  constructor
  · intro hall
    have hkeep : ∀ items t v items', Short items t → Items.step items v = some items' →
        Short items' (t.read v) := fun _ _ _ _ h hstep => h.step hstep
    apply (allSteps_or_run (fun _ _ _ _ h hok hstep => h.step hok hstep)
      (fun _ _ _ _ h hbad hstep => h.stray hbad hstep) hkeep
      (attributes_unread names) hrun).resolve_right
    intro hshort
    rw [hread] at hshort
    obtain ⟨-, -, earlier, item, later, hmem, -, buf, hbuf, hless⟩ := hshort
    have hown := hall item (by rw [← hitems, hmem]; simp)
    obtain rfl := Option.some.inj (hbuf.symm.trans hown)
    exact lt_irrefl _ hless
  · intro hall item hmem
    have hend := simulation_run (fun _ _ _ _ h hok hstep => h.step hok hstep)
      (attributes_unread names) hall hrun
    rw [hread] at hend
    rw [hend.buffers]
    rw [← hitems] at hmem
    exact lookup_map_of_mem (hend.apart.imp And.right) hmem

/-! Two calls of a weather question, as their items and arguments arrive. -/

def added (index : ℕ) (name : String) : Json :=
  .obj [("type", .str "response.output_item.added"), ("output_index", .nat index),
    ("item", .obj [("type", .str "function_call"), ("id", .str ("fc_" ++ name)),
      ("call_id", .str ("call_" ++ name)), ("name", .str name), ("arguments", .str "")])]

def addedText (index name : String) : String :=
  "\x7b\"type\":\"response.output_item.added\",\"output_index\":" ++ index ++
  ",\"item\":\x7b\"type\":\"function_call\",\"id\":\"fc_" ++ name ++ "\",\"call_id\":\"call_" ++
  name ++ "\",\"name\":\"" ++ name ++ "\",\"arguments\":\"\"\x7d\x7d"

def fragment (index : ℕ) (name : String) : Json :=
  .obj [("type", .str "response.function_call_arguments.delta"),
    ("item_id", .str ("fc_" ++ name)), ("output_index", .nat index), ("delta", .str "\x7b\x7d")]

def fragmentText (index name : String) : String :=
  "\x7b\"type\":\"response.function_call_arguments.delta\",\"item_id\":\"fc_" ++ name ++
  "\",\"output_index\":" ++ index ++ ",\"delta\":\"\x7b\x7d\"\x7d"

/-- serde_json on the payloads of the two calls. -/
def weatherFromStr (text : String) : Option Json :=
  [(addedText "0" "now", added 0 "now"), (addedText "1" "later", added 1 "later"),
    (fragmentText "0" "now", fragment 0 "now"),
    (fragmentText "1" "later", fragment 1 "later")].lookup text

/-- The first call's arguments come before the second call opens. -/
def oneByOne : List String :=
  [addedText "0" "now", fragmentText "0" "now", addedText "1" "later", fragmentText "1" "later"]

/-- Both calls are open when their arguments come. -/
def bothOpen : List String :=
  [addedText "0" "now", addedText "1" "later", fragmentText "0" "now", fragmentText "1" "later"]

theorem one_by_one_attributed : ArgumentsAttributed weatherFromStr {} oneByOne :=
  (arguments_attributed_iff weatherFromStr {} oneByOne (by decide +kernel)).mpr (by decide +kernel)

theorem both_open_misattributed :
    ¬ ∀ (fromStr : String → Option Json) names payloads,
      WellAddressed (payloads.filterMap fromStr) → ArgumentsAttributed fromStr names payloads := by
  intro hall
  have hopened : ⟨⟨some "fc_now", some 0⟩, "call_now"⟩ ∈
      (bothOpen.filterMap weatherFromStr).filterMap opened? := by
    decide +kernel
  have hbuffer := hall weatherFromStr {} bothOpen (by decide +kernel) _ hopened
  exact absurd hbuffer (by decide +kernel)

end Attribution

end OpenAIGateway.Responses
