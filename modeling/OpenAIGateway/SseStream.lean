import OpenAIGateway.SseCuts

/-!
Complete SSE events, and when the way they are cut into reads shows. An event
is some non-blank lines and a blank one. Whatever the cuts, the pump takes
whole events at a time; a take that holds one event that is not UTF-8 loses
the payloads of all of them, so the result depends on which events arrive
together exactly when there is such an event and another with a payload.
-/

set_option linter.all false

namespace OpenAIGateway.Sse

open Lines
open Utf8 (newline decode?)

/-- A complete event: lines that are not blank, then a blank line. -/
structure SseEvent where
  fields : List (List UInt8)
  blank : List UInt8
  clean : ∀ l ∈ fields, newline ∉ l
  nonblank : ∀ l ∈ fields, ¬ IsBlank l
  isBlank : IsBlank blank

namespace SseEvent

def lines (e : SseEvent) : List (List UInt8) := e.fields ++ [e.blank]

def bytes (e : SseEvent) : List UInt8 := join newline e.lines

/-- The payloads of the event on its own. -/
def payloads (e : SseEvent) : List String := framePayloads e.bytes

/-- The event is UTF-8 throughout. -/
def IsText (e : SseEvent) : Prop := (decode? e.bytes).isSome

theorem clean_lines (e : SseEvent) : Clean newline e.lines := by
  intro l hl
  rcases List.mem_append.mp hl with hl | hl
  · exact e.clean l hl
  · rw [List.mem_singleton.mp hl]
    rcases e.isBlank with h | h
    · simp [h]
    · rw [h]
      decide

end SseEvent

def allLines (events : List SseEvent) : List (List UInt8) := events.flatMap SseEvent.lines

def allBytes (events : List SseEvent) : List UInt8 := events.flatMap SseEvent.bytes

theorem allBytes_eq_join (events : List SseEvent) : allBytes events = join newline (allLines events) := by
  induction events with
  | nil => rfl
  | cons e rest ih =>
    unfold allBytes allLines at *
    rw [List.flatMap_cons, List.flatMap_cons, join_append, ih]
    rfl

theorem clean_allLines (events : List SseEvent) : Clean newline (allLines events) := by
  intro l hl
  obtain ⟨e, -, hl⟩ := List.mem_flatMap.mp hl
  exact e.clean_lines l hl

theorem linePayloads_append (xs ys : List (List Char)) :
    linePayloads (xs ++ ys) = linePayloads xs ++ linePayloads ys := by
  simp [linePayloads, List.filterMap_append]

/-- The payload of one line of bytes. -/
def bytesPayloads (l : List UInt8) : List String :=
  (decode? l).toList.flatMap (fun text => linePayloads [stripCr text])

theorem linesFrom_newline (acc text rest : List Char) (h : '\n' ∉ text) :
    linesFrom acc (text ++ '\n' :: rest) = stripCr (acc ++ text) :: lines rest := by
  induction text generalizing acc with
  | nil => simp [linesFrom, lines]
  | cons c text ih =>
    have hc : c ≠ '\n' := fun heq => h (by simp [heq])
    rw [List.cons_append, linesFrom, if_neg hc, ih (acc ++ [c]) (fun hmem => h (by simp [hmem]))]
    simp

theorem not_mem_of_decode? {l : List UInt8} {text : List Char} (hl : newline ∉ l)
    (h : decode? l = some text) : '\n' ∉ text := by
  rw [Utf8.decode?_eq_some_iff] at h
  rw [← Utf8.newline_mem_encode_iff, h]
  exact hl

/-- A group of lines decodes when each of them does, and then its payloads are
theirs in order. -/
theorem framePayloads_join {group : List (List UInt8)} (hclean : Clean newline group) :
    ((∀ l ∈ group, (decode? l).isSome) ∧ (decode? (join newline group)).isSome ∧
        framePayloads (join newline group) = group.flatMap bytesPayloads) ∨
      ((∃ l ∈ group, decode? l = none) ∧ decode? (join newline group) = none) := by
  induction group with
  | nil =>
    left
    have hnil : decode? [] = some [] := (Utf8.decode?_eq_some_iff [] []).mpr rfl
    refine ⟨by simp, ?_, ?_⟩
    · rw [join_nil, hnil]
      rfl
    · rw [join_nil, framePayloads, hnil]
      rfl
  | cons l rest ih =>
    have hl : newline ∉ l := hclean l (by simp)
    rw [join_cons, framePayloads, Utf8.decode?_append_newline]
    cases hdecode : decode? l with
    | none => exact Or.inr ⟨⟨l, by simp, hdecode⟩, rfl⟩
    | some text =>
      rcases ih (fun l' hl' => hclean l' (by simp [hl'])) with
        ⟨hall, hsome, hpayloads⟩ | ⟨⟨l', hl', hnone⟩, hrest⟩
      · left
        obtain ⟨more, hmore⟩ := Option.isSome_iff_exists.mp hsome
        rw [framePayloads, hmore] at hpayloads
        have hlines := linesFrom_newline [] text more (not_mem_of_decode? hl hdecode)
        rw [hmore]
        refine ⟨?_, rfl, ?_⟩
        · intro l' hl'
          rcases List.mem_cons.mp hl' with rfl | hl'
          · simp [hdecode]
          · exact hall l' hl'
        · simp only [Option.bind_some, Option.map_some]
          rw [lines, hlines, List.flatMap_cons, ← hpayloads, bytesPayloads, hdecode]
          simpa using linePayloads_append [stripCr text] (lines more)
      · right
        refine ⟨⟨l', by simp [hl'], hnone⟩, ?_⟩
        rw [hrest]
        rfl

theorem isBlank_text {b : List UInt8} (hb : IsBlank b) :
    (decode? b).isSome ∧ bytesPayloads b = [] := by
  have hempty : decode? [] = some [] := (Utf8.decode?_eq_some_iff [] []).mpr rfl
  have hcr : decode? [cr] = some ['\r'] := (Utf8.decode?_eq_some_iff [cr] ['\r']).mpr (by decide)
  unfold bytesPayloads
  rcases hb with rfl | rfl
  · rw [hempty]
    exact ⟨rfl, by decide⟩
  · rw [hcr]
    exact ⟨rfl, by decide⟩

/-- Some events taken together: their payloads, or nothing if one of them is
not text. -/
theorem framePayloads_events (group : List SseEvent) :
    ((∀ e ∈ group, e.IsText) ∧
        framePayloads (join newline (allLines group)) = group.flatMap SseEvent.payloads) ∨
      ((∃ e ∈ group, ¬ e.IsText) ∧ framePayloads (join newline (allLines group)) = []) := by
  have heach : ∀ e : SseEvent, (∀ l ∈ e.lines, (decode? l).isSome) →
      e.IsText ∧ e.payloads = e.lines.flatMap bytesPayloads := by
    intro e hall
    rcases framePayloads_join e.clean_lines with ⟨-, hsome, hpayloads⟩ | ⟨⟨l, hl, hnone⟩, -⟩
    · exact ⟨hsome, hpayloads⟩
    · have := hall l hl
      rw [hnone] at this
      cases this
  rcases framePayloads_join (clean_allLines group) with
    ⟨hall, -, hpayloads⟩ | ⟨⟨l, hl, hnone⟩, hdecode⟩
  · left
    have hgroup : ∀ e ∈ group, ∀ l ∈ e.lines, (decode? l).isSome := fun e he l hl =>
      hall l (List.mem_flatMap.mpr ⟨e, he, hl⟩)
    refine ⟨fun e he => (heach e (hgroup e he)).1, ?_⟩
    rw [hpayloads, allLines, List.flatMap_assoc]
    exact List.flatMap_congr (fun e he => ((heach e (hgroup e he)).2).symm)
  · right
    refine ⟨?_, by rw [framePayloads, hdecode]⟩
    obtain ⟨e, he, hle⟩ := List.mem_flatMap.mp hl
    refine ⟨e, he, fun htext => ?_⟩
    rcases framePayloads_join e.clean_lines with ⟨hall, -, -⟩ | ⟨-, hbad⟩
    · have := hall l hle
      rw [hnone] at this
      cases this
    · unfold SseEvent.IsText SseEvent.bytes at htext
      rw [hbad] at htext
      cases htext

theorem SseEvent.payloads_of_not_isText {e : SseEvent} (h : ¬ e.IsText) : e.payloads = [] := by
  unfold SseEvent.IsText at h
  unfold SseEvent.payloads framePayloads
  rw [Option.not_isSome_iff_eq_none.mp h]

/-- Lines taken up to a blank one are whole events. -/
theorem allLines_split {events : List SseEvent} {init rest : List (List UInt8)} {b : List UInt8}
    (h : allLines events = init ++ [b] ++ rest) (hb : IsBlank b) :
    ∃ front back, events = front ++ back ∧ init ++ [b] = allLines front ∧
      rest = allLines back := by
  induction events generalizing init with
  | nil => simp [allLines] at h
  | cons e events ih =>
    have heq : e.lines ++ allLines events = (init ++ [b]) ++ rest := h
    have hwhole : e.lines = init ++ [b] → rest = allLines events →
        ∃ front back, e :: events = front ++ back ∧ init ++ [b] = allLines front ∧
          rest = allLines back := by
      intro hlines hrest
      exact ⟨[e], events, rfl, by simp [allLines, hlines], hrest⟩
    rcases List.append_eq_append_iff.mp heq with ⟨more, hfront, htail⟩ | ⟨more, hlines, hrest⟩
    · rcases List.eq_nil_or_concat' more with rfl | ⟨init', b', rfl⟩
      · exact hwhole (by simpa using hfront.symm) (by simpa using htail.symm)
      · have hb' : b' = b := by
          rw [← List.append_assoc] at hfront
          simpa using (List.append_inj' hfront rfl).2.symm
        obtain ⟨front, back, rfl, hinit', rfl⟩ := ih (hb' ▸ htail)
        refine ⟨e :: front, back, rfl, ?_, rfl⟩
        rw [hfront, hb', hinit']
        rfl
    · rcases List.eq_nil_or_concat' more with rfl | ⟨more', last, rfl⟩
      · exact hwhole (by simpa using hlines) (by simpa using hrest)
      · have hfields : e.fields = init ++ [b] ++ more' := by
          rw [← List.append_assoc] at hlines
          exact (List.append_inj' hlines rfl).1
        exact absurd hb (e.nonblank b (by rw [hfields]; simp))

/-- The groups the pump takes are groups of events. -/
theorem groups_are_events (groups : List (List (List UInt8))) {events : List SseEvent}
    {rest : List (List UInt8)} (h : allLines events = groups.flatten ++ rest)
    (hends : ∀ group ∈ groups, GroupEnd group) :
    ∃ (taken : List (List SseEvent)) (left : List SseEvent), events = taken.flatten ++ left ∧
      groups = taken.map allLines ∧ rest = allLines left := by
  induction groups generalizing events with
  | nil => exact ⟨[], events, rfl, rfl, h.symm⟩
  | cons group groups ih =>
    obtain ⟨init, b, rfl, -, hb⟩ := hends group (by simp)
    rw [List.flatten_cons, List.append_assoc] at h
    obtain ⟨front, back, rfl, hfront, hback⟩ := allLines_split h hb
    obtain ⟨taken, left, rfl, rfl, rfl⟩ := ih hback.symm (fun g hg => hends g (by simp [hg]))
    exact ⟨front :: taken, left, by simp, by simp [hfront], rfl⟩

theorem groupEnd_cons_event (l : List UInt8) (ls : List (List UInt8)) (e : SseEvent) :
    GroupEnd (l :: ls ++ e.lines) :=
  ⟨l :: ls ++ e.fields, e.blank, by simp [SseEvent.lines], by simp, e.isBlank⟩

/-- An event with a field ends a take on its own. -/
theorem groupEnd_lines {e : SseEvent} (h : e.fields ≠ []) : GroupEnd e.lines :=
  ⟨e.fields, e.blank, rfl, h, e.isBlank⟩

theorem SseEvent.isText_of_bare {e : SseEvent} (h : e.fields = []) :
    e.IsText ∧ e.payloads = [] := by
  have hblank := isBlank_text e.isBlank
  have hlines : e.lines = [e.blank] := by simp [SseEvent.lines, h]
  rcases framePayloads_join e.clean_lines with ⟨-, hsome, hpayloads⟩ | ⟨⟨l, hl, hnone⟩, -⟩
  · refine ⟨hsome, ?_⟩
    unfold SseEvent.payloads SseEvent.bytes
    rw [hpayloads, hlines]
    simpa using hblank.2
  · rw [hlines, List.mem_singleton] at hl
    rw [hl] at hnone
    simp [hnone] at hblank

/-- What is left in the buffer carries no payload: it is at most a bare blank
line. -/
theorem left_payloads {left : List SseEvent}
    (h : ∀ x y, join newline (allLines left) = x ++ y → ¬ BlankEnd x) :
    left.flatMap SseEvent.payloads = [] := by
  have hnot : ∀ front back, allLines left = front ++ back → ¬ GroupEnd front := by
    intro front back heq hgroup
    have hclean := clean_allLines left
    rw [heq] at hclean
    refine h (join newline front) (join newline back) (by rw [heq, join_append]) ?_
    exact (blankEnd_join_iff (clean_append.mp hclean).1).mpr hgroup
  cases left with
  | nil => rfl
  | cons e rest =>
    have hbare : e.fields = [] := by
      by_contra hfields
      exact hnot e.lines (allLines rest) rfl (groupEnd_lines hfields)
    cases rest with
    | nil => simpa using (SseEvent.isText_of_bare hbare).2
    | cons e' rest =>
      have hlines : e.lines = [e.blank] := by simp [SseEvent.lines, hbare]
      exfalso
      refine hnot ([e.blank] ++ e'.lines) (allLines rest) ?_ (groupEnd_cons_event e.blank [] e')
      simp [allLines, hlines]

/-- The payloads of any cut, event group by event group. -/
theorem runReads_events {events : List SseEvent} {reads : List (List UInt8)}
    (h : reads.flatten = allBytes events) :
    ∃ (taken : List (List SseEvent)) (left : List SseEvent), events = taken.flatten ++ left ∧
      runReads reads = taken.flatMap (fun group => framePayloads (join newline (allLines group))) ∧
      left.flatMap SseEvent.payloads = [] := by
  obtain ⟨groups, rest, hstream, hrun, hclean, hends, hrest⟩ := runReads_groups reads
  rw [h, allBytes_eq_join] at hstream
  have hprefix : join newline groups.flatten = [] ∨
      ∃ z, join newline groups.flatten = z ++ [newline] := by
    rcases join_eq_nil_or newline groups.flatten with hnil | hz
    · exact Or.inl (by rw [hnil]; rfl)
    · exact Or.inr hz
  obtain ⟨front, back, hlines, hfront, hback⟩ := join_prefix
    ((List.append_nil _).trans hstream) (clean_allLines events) (by simp) hprefix
  have hevents := clean_allLines events
  rw [hlines, clean_append] at hevents
  rw [← join_inj hclean hevents.1 hfront] at hlines
  obtain ⟨taken, left, hsplit, rfl, rfl⟩ := groups_are_events groups hlines hends
  refine ⟨taken, left, hsplit, ?_, ?_⟩
  · rw [hrun, List.flatMap_map]
  · rw [List.append_nil] at hback
    rw [hback] at hrest
    exact left_payloads hrest

/-- All events are text, or none carries a payload. -/
def CutsDoNotShow (events : List SseEvent) : Prop :=
  (∀ e ∈ events, e.IsText) ∨ ∀ e ∈ events, e.payloads = []

/-- Then every cut yields the payloads of the events one by one. -/
theorem runReads_eq_payloads {events : List SseEvent} (h : CutsDoNotShow events)
    {reads : List (List UInt8)} (hreads : reads.flatten = allBytes events) :
    runReads reads = events.flatMap SseEvent.payloads := by
  obtain ⟨taken, left, rfl, hrun, hleft⟩ := runReads_events hreads
  have hgroup : ∀ group ∈ taken, framePayloads (join newline (allLines group)) =
      group.flatMap SseEvent.payloads := by
    intro group hmem
    have hsub : ∀ e ∈ group, e ∈ taken.flatten ++ left := fun e he =>
      List.mem_append_left _ (List.mem_flatten.mpr ⟨group, hmem, he⟩)
    rcases framePayloads_events group with ⟨-, hpayloads⟩ | ⟨⟨e, he, hbad⟩, hnone⟩
    · exact hpayloads
    · rcases h with htext | hempty
      · exact absurd (htext e (hsub e he)) hbad
      · rw [hnone]
        exact (List.flatMap_eq_nil_iff.mpr (fun e' he' => hempty e' (hsub e' he'))).symm
  rw [hrun, List.flatMap_append, hleft, List.append_nil, List.flatMap_congr hgroup]
  clear hrun hgroup hreads h
  induction taken with
  | nil => rfl
  | cons group rest ih => simp [ih]

/-- A buffer that ends in a blank line after a break is taken whole. -/
theorem takeSsePayloads_whole {buf : List UInt8} (h : BlankEnd buf) :
    takeSsePayloads buf = ([], framePayloads buf) := by
  rcases takeSsePayloads_spec buf with ⟨-, hnone⟩ | ⟨x, y, hsplit, -, htake, hlongest⟩
  · exact absurd h (hnone buf [] (by simp))
  · have hlen := hlongest buf [] (by simp) h
    have hy : y = [] := by
      have hsum := congrArg List.length hsplit
      rw [List.length_append] at hsum
      exact List.length_eq_zero_iff.mp (by omega)
    rw [hy, List.append_nil] at hsplit
    rw [htake, hy, ← hsplit]

/-- Where the event-wise cut stands after some events: nothing is pending but
perhaps one bare blank line. -/
structure EventWise (events : List SseEvent) (pump : Pump) : Prop where
  payloads_eq : pump.payloads = events.flatMap SseEvent.payloads
  pending_eq : pump.pending = [] ∨ ∃ b, IsBlank b ∧ pump.pending = join newline [b]

theorem EventWise.taken {events : List SseEvent} {pump : Pump} (h : EventWise events pump)
    (e : SseEvent) (hend : BlankEnd (pump.pending ++ e.bytes))
    (hpayloads : framePayloads (pump.pending ++ e.bytes) = e.payloads) :
    EventWise (events ++ [e]) (pump.read e.bytes) := by
  rw [Pump.read_eq (takeSsePayloads_whole hend)]
  exact ⟨by simp [h.payloads_eq, hpayloads], Or.inl rfl⟩

/-- A blank line before an event changes nothing about it. -/
theorem framePayloads_blank_append {b : List UInt8} (hb : IsBlank b) (e : SseEvent) :
    BlankEnd (join newline [b] ++ e.bytes) ∧
      framePayloads (join newline [b] ++ e.bytes) = e.payloads := by
  set bare : SseEvent := ⟨[], b, by simp, by simp, hb⟩ with hbare
  have htext := SseEvent.isText_of_bare (e := bare) rfl
  have hbytes : join newline [b] ++ e.bytes = join newline (allLines [bare, e]) := by
    simp [SseEvent.bytes, allLines, SseEvent.lines, hbare]
  rw [hbytes]
  constructor
  · rw [blankEnd_join_iff (clean_allLines _)]
    have hlines : allLines [bare, e] = [b] ++ e.lines := by
      simp [allLines, SseEvent.lines, hbare]
    rw [hlines]
    exact groupEnd_cons_event b [] e
  · rcases framePayloads_events [bare, e] with ⟨-, hpayloads⟩ | ⟨⟨e', he', hbad⟩, hnone⟩
    · rw [hpayloads]
      simp [htext.2]
    · rw [hnone]
      rcases List.mem_cons.mp he' with rfl | he'
      · exact absurd htext.1 hbad
      · rw [List.mem_singleton.mp he'] at hbad
        exact (SseEvent.payloads_of_not_isText hbad).symm

theorem EventWise.read {events : List SseEvent} {pump : Pump} (h : EventWise events pump)
    (e : SseEvent) : EventWise (events ++ [e]) (pump.read e.bytes) := by
  rcases h.pending_eq with hnil | ⟨b, hb, hpending⟩
  · by_cases hfields : e.fields = []
    · have hlines : e.lines = [e.blank] := by simp [SseEvent.lines, hfields]
      have htake : takeSsePayloads (pump.pending ++ e.bytes) = (e.bytes, []) := by
        rw [hnil, List.nil_append]
        rcases takeSsePayloads_spec e.bytes with ⟨htake, -⟩ | ⟨x, y, hsplit, hblank, -, -⟩
        · exact htake
        · exfalso
          obtain ⟨front, back, hfront, rfl, -⟩ := join_prefix
            ((List.append_nil _).trans hsplit) e.clean_lines (by simp) (Or.inr hblank.newline)
          have hclean := e.clean_lines
          rw [hfront, clean_append] at hclean
          obtain ⟨init, last, rfl, hinit, -⟩ := (blankEnd_join_iff hclean.1).mp hblank
          have hlen := congrArg List.length (hlines.symm.trans hfront)
          have hpos := List.length_pos_iff.mpr hinit
          simp only [List.length_append, List.length_cons, List.length_nil] at hlen
          omega
      rw [Pump.read_eq htake]
      refine ⟨?_, Or.inr ⟨e.blank, e.isBlank, ?_⟩⟩
      · simp [h.payloads_eq, (SseEvent.isText_of_bare hfields).2]
      · rw [SseEvent.bytes, hlines]
    · refine h.taken e ?_ ?_
      · rw [hnil, List.nil_append]
        exact (blankEnd_join_iff e.clean_lines).mpr (groupEnd_lines hfields)
      · rw [hnil, List.nil_append]
        rfl
  · obtain ⟨hend, hpayloads⟩ := framePayloads_blank_append hb e
    rw [← hpending] at hend hpayloads
    exact h.taken e hend hpayloads

theorem eventWise_reads (events : List SseEvent) {done : List SseEvent} {pump : Pump}
    (h : EventWise done pump) :
    EventWise (done ++ events) ((events.map SseEvent.bytes).foldl Pump.read pump) := by
  induction events generalizing done pump with
  | nil => simpa using h
  | cons e rest ih => simpa using ih (h.read e)

/-- With one read for each event, an event that is not text costs only itself. -/
theorem runReads_eventWise (events : List SseEvent) :
    runReads (events.map SseEvent.bytes) = events.flatMap SseEvent.payloads := by
  obtain ⟨groups, htaken⟩ := taken_reads (events.map SseEvent.bytes) taken_start
  have hstart : EventWise [] ({} : Pump) := ⟨rfl, Or.inl rfl⟩
  have hwise := eventWise_reads events hstart
  unfold runReads
  rw [htaken.finish, hwise.payloads_eq, List.nil_append]

/-- With one read for the whole stream it costs everything. -/
theorem runReads_whole {events : List SseEvent} (h : ∃ e ∈ events, ¬ e.IsText) :
    runReads [allBytes events] = [] := by
  obtain ⟨e, he, hbad⟩ := h
  have hfields : e.fields ≠ [] := fun hnil => hbad (SseEvent.isText_of_bare hnil).1
  have hgroup : GroupEnd (allLines events) := by
    rcases List.eq_nil_or_concat' events with rfl | ⟨init, last, rfl⟩
    · simp at he
    · refine ⟨allLines init ++ last.fields, last.blank, ?_, ?_, last.isBlank⟩
      · simp [allLines, SseEvent.lines]
      · rw [Ne, List.append_eq_nil_iff]
        rintro ⟨hinit, hlast⟩
        rcases List.mem_append.mp he with he | he
        · have hlines := List.flatMap_eq_nil_iff.mp hinit e he
          simp [SseEvent.lines] at hlines
        · rw [List.mem_singleton.mp he] at hfields
          exact hfields hlast
  have hend : BlankEnd (allBytes events) := by
    rw [allBytes_eq_join, blankEnd_join_iff (clean_allLines events)]
    exact hgroup
  have hnone : framePayloads (allBytes events) = [] := by
    rw [allBytes_eq_join]
    rcases framePayloads_events events with ⟨hall, -⟩ | ⟨-, hnone⟩
    · exact absurd (hall e he) hbad
    · exact hnone
  have hread : Pump.read {} (allBytes events) = ⟨[], []⟩ := by
    have htake : takeSsePayloads (({} : Pump).pending ++ allBytes events) = ([], []) := by
      rw [← hnone]
      exact takeSsePayloads_whole hend
    rw [Pump.read_eq htake]
    rfl
  show ([allBytes events].foldl Pump.read {}).finish = []
  rw [List.foldl_cons, hread]
  rfl

/-- Two ways of cutting the stream into reads always agree exactly when every
event is text or no event carries a payload; and then every way yields the
payloads of the events one by one. -/
theorem cuts_agree_iff (events : List SseEvent) :
    ((∀ reads reads' : List (List UInt8), reads.flatten = allBytes events →
        reads'.flatten = allBytes events → runReads reads = runReads reads') ↔
      CutsDoNotShow events) ∧
    (CutsDoNotShow events → ∀ reads : List (List UInt8), reads.flatten = allBytes events →
      runReads reads = events.flatMap SseEvent.payloads) := by
  refine ⟨⟨fun h => ?_, fun h reads reads' hreads hreads' => ?_⟩,
    fun h reads hreads => runReads_eq_payloads h hreads⟩
  · by_cases hall : ∀ e ∈ events, e.IsText
    · exact Or.inl hall
    · right
      have hbad : ∃ e ∈ events, ¬ e.IsText := by simpa using hall
      have hagree := h (events.map SseEvent.bytes) [allBytes events]
        (by simp [allBytes, List.flatMap_def]) (by simp)
      rw [runReads_eventWise, runReads_whole hbad] at hagree
      exact List.flatMap_eq_nil_iff.mp hagree
  · rw [runReads_eq_payloads h hreads, runReads_eq_payloads h hreads']

/-- A line with a byte no UTF-8 text contains. -/
def garbledEvent : SseEvent where
  fields := [[0xFF]]
  blank := []
  clean := by decide
  nonblank := by simp [IsBlank, cr]
  isBlank := Or.inl rfl

/-- The line `data: a`. -/
def dataEvent : SseEvent where
  fields := [[100, 97, 116, 97, 58, 32, 97]]
  blank := []
  clean := by decide
  nonblank := by simp [IsBlank]
  isBlank := Or.inl rfl

/-- The payload beside a garbled frame arrives in two reads and not in one. -/
theorem garbled_frame_costs_its_neighbour :
    [garbledEvent.bytes, dataEvent.bytes].flatten = allBytes [garbledEvent, dataEvent] ∧
      [allBytes [garbledEvent, dataEvent]].flatten = allBytes [garbledEvent, dataEvent] ∧
      runReads [garbledEvent.bytes, dataEvent.bytes] = ["a"] ∧
      runReads [allBytes [garbledEvent, dataEvent]] = [] := by
  have hgarbled : ¬ garbledEvent.IsText := by
    have hnone : decode? garbledEvent.bytes = none :=
      Utf8.decode?_eq_none_of_mem (b := 0xFF) (by decide) (by decide)
    simp [SseEvent.IsText, hnone]
  have hdata : dataEvent.payloads = ["a"] := by
    have htext : decode? dataEvent.bytes = some "data: a\n\n".toList :=
      (Utf8.decode?_eq_some_iff _ _).mpr (by decide)
    unfold SseEvent.payloads framePayloads
    rw [htext]
    decide
  refine ⟨by simp [allBytes], by simp, ?_, runReads_whole ⟨garbledEvent, by simp, hgarbled⟩⟩
  have hwise := runReads_eventWise [garbledEvent, dataEvent]
  simpa [SseEvent.payloads_of_not_isText hgarbled, hdata] using hwise

end OpenAIGateway.Sse
