import OpenAIGateway.Percent
import Mathlib.Data.Bool.AllAny
import Mathlib.Data.List.TakeWhile

/-!
The path of a URL as segments. A URL parser resolves the segments that are dots
alone, in either spelling of a dot, and leaves any other segment of plain
characters as it was written.
-/

set_option linter.all false

namespace UrlPath

abbrev Segment := List Char

structure Url where
  /-- The scheme and the authority. -/
  origin : List Char
  /-- The path, cut after each slash. -/
  segments : List Segment
  query : Option (List Char)
  deriving DecidableEq, Repr

/-- A dot, as it is or escaped. -/
def singleDots : List Segment := [".".toList, "%2e".toList, "%2E".toList]

def doubleDots : List Segment := singleDots.flatMap fun dot => singleDots.map (dot ++ ·)

def IsDots (segment : Segment) : Prop := segment ∈ singleDots ∨ segment ∈ doubleDots

instance (segment : Segment) : Decidable (IsDots segment) :=
  inferInstanceAs (Decidable (_ ∨ _))

/-- One dot stays where it is, two go back by a segment, and anything else is entered. -/
def enter (path : List Segment) (segment : Segment) : List Segment :=
  if segment ∈ doubleDots then path.dropLast
  else if segment ∈ singleDots then path
  else path ++ [segment]

/-- Dots at the end leave an empty segment. -/
def resolve (segments : List Segment) : List Segment :=
  segments.foldl enter [] ++
    if ∃ last ∈ segments.getLast?, ¬ IsDots last then [] else [[]]

/-- The text of a path. -/
def text (segments : List Segment) : List Char := segments.flatMap ('/' :: ·)

def queryText : Option (List Char) → List Char
  | none => []
  | some query => '?' :: query

/-- The characters a parser leaves alone in a path and in a query: visible ASCII, less those that
end a segment and those that are escaped in either. -/
def plain (c : Char) : Bool :=
  decide (33 ≤ c.toNat ∧ c.toNat ≤ 126) && !("/?#\\\"'<>`{}^".toList.contains c)

/-- Every character of it is left alone. -/
def Plain (segment : Segment) : Prop := ∀ c ∈ segment, plain c = true

/-- What is asked of a parser at the front of a URL: the path written after it has its dots
resolved, beneath the path it names itself, and is otherwise kept, as the query is. -/
def Reads {ε : Type} (parse : List Char → Except ε Url) (front origin : List Char)
    (below : List Segment) : Prop :=
  ∀ (segments : List Segment) (query : Option (List Char)), segments ≠ [] →
    (∀ segment ∈ segments, Plain segment) → (∀ q ∈ query, Plain q) →
    parse (front ++ text segments ++ queryText query) =
      .ok ⟨origin, resolve (below ++ segments), query⟩

theorem decode_singleDots : ∀ s ∈ singleDots, Percent.decode s = [46] := by decide

theorem decode_doubleDots : ∀ s ∈ doubleDots, Percent.decode s = [46, 46] := by decide

theorem chars_of_isDots {segment : Segment} (h : IsDots segment) :
    ∀ c ∈ segment, c ∈ ".%2eE".toList := by
  have hsingle : ∀ s ∈ singleDots, s.all (fun c => decide (c ∈ ".%2eE".toList)) = true := by decide
  have hdouble : ∀ s ∈ doubleDots, s.all (fun c => decide (c ∈ ".%2eE".toList)) = true := by decide
  cases h with
  | inl h => exact List.all_iff_forall_prop.mp (hsingle segment h)
  | inr h => exact List.all_iff_forall_prop.mp (hdouble segment h)

theorem enter_of_not_isDots {path : List Segment} {segment : Segment} (h : ¬ IsDots segment) :
    enter path segment = path ++ [segment] := by
  rw [enter, if_neg (fun hd => h (.inr hd)), if_neg (fun hs => h (.inl hs))]

/-- Bytes encoded with the dot kept are dots only when they were. -/
theorem isDots_encode_iff {keep : UInt8 → Bool} (hsafe : Percent.Safe keep) (hdot : keep 46 = true)
    (bytes : List UInt8) :
    IsDots (Percent.encode keep bytes) ↔ bytes = [46] ∨ bytes = [46, 46] := by
  have hone : Percent.encodeByte keep 46 = ['.'] := by
    rw [Percent.encodeByte, if_pos hdot]
    rfl
  constructor
  · intro h
    rw [← Percent.decode_encode hsafe bytes]
    exact h.imp (decode_singleDots _) (decode_doubleDots _)
  · intro h
    rcases h with rfl | rfl
    · refine .inl ?_
      rw [Percent.encode, List.flatMap_singleton, hone]
      decide
    · refine .inr ?_
      rw [Percent.encode, List.flatMap_cons, List.flatMap_singleton, hone]
      decide

/-- Segments that are not dots are entered one after another. -/
theorem foldl_enter {segments : List Segment} (h : ∀ s ∈ segments, ¬ IsDots s)
    (path : List Segment) : segments.foldl enter path = path ++ segments := by
  induction segments generalizing path with
  | nil => exact (List.append_nil path).symm
  | cons segment segments ih =>
    rw [List.foldl_cons, enter_of_not_isDots (h segment List.mem_cons_self),
      ih (fun s hs => h s (List.mem_cons_of_mem _ hs)), List.append_assoc, List.singleton_append]

/-- Segments that are not dots stay at the end of a path as they are. -/
theorem resolve_append {front back : List Segment} (hne : back ≠ []) (h : ∀ s ∈ back, ¬ IsDots s) :
    resolve (front ++ back) = front.foldl enter [] ++ back := by
  have hlast : ∃ s ∈ (front ++ back).getLast?, ¬ IsDots s := by
    refine ⟨back.getLast hne, ?_, h _ (List.getLast_mem hne)⟩
    rw [List.getLast?_append_of_ne_nil _ hne, List.getLast?_eq_some_getLast hne]
    rfl
  rw [resolve, if_pos hlast, List.append_nil, List.foldl_append, foldl_enter h]

/-- Dots between two segments leave one of them, or neither. -/
theorem length_resolve_of_isDots {front : List Segment} {a dots b : Segment} (ha : ¬ IsDots a)
    (hdots : IsDots dots) (hb : ¬ IsDots b) :
    (resolve (front ++ [a, dots, b])).length < (front.foldl enter []).length + 3 := by
  have hentered : (enter (front.foldl enter [] ++ [a]) dots).length ≤
      (front.foldl enter []).length + 1 := by
    unfold enter
    split
    · rw [List.dropLast_concat]
      omega
    · rw [if_pos (hdots.resolve_right ‹_›), List.length_append, List.length_singleton]
  have hfront : front ++ [a, dots, b] = (front ++ [a, dots]) ++ [b] := by
    rw [List.append_assoc]
    rfl
  have hfold : (front ++ [a, dots]).foldl enter [] = enter (front.foldl enter [] ++ [a]) dots := by
    rw [List.foldl_append, List.foldl_cons, List.foldl_cons, List.foldl_nil,
      enter_of_not_isDots ha]
  rw [hfront, resolve_append (List.cons_ne_nil _ _) (by simpa using hb), hfold, List.length_append,
    List.length_singleton]
  omega

/-- An encoding is plain when the bytes it keeps are. -/
theorem plain_encode {keep : UInt8 → Bool}
    (hkeep : ∀ b, keep b = true → plain (Char.ofNat b.toNat) = true) (bytes : List UInt8) :
    Plain (Percent.encode keep bytes) := by
  have hdigits : ∀ n < 16, plain (Percent.upperHex n) = true := by decide
  intro c hc
  rcases Percent.mem_encode hc with ⟨b, hb, rfl⟩ | rfl | ⟨n, hn, rfl⟩
  · exact hkeep b hb
  · decide
  · exact hdigits n hn

/-- A URL read at `https`. Its host is taken as it is written. -/
def read (url : List Char) : Except String Url :=
  if "https://".toList <+: url then
    let rest := (url.drop 8).takeWhile (· ≠ '#')
    let location := rest.takeWhile (· ≠ '?')
    let host := location.takeWhile (· ≠ '/')
    .ok {
      origin := "https://".toList ++ host
      segments := resolve ((location.dropWhile (· ≠ '/')).splitOn '/').tail
      query := (rest.dropWhile (· ≠ '?')).tail? }
  else .error "relative URL without a base"

theorem ne_of_plain {c : Char} (h : plain c = true) : c ≠ '#' ∧ c ≠ '?' ∧ c ≠ '/' := by
  refine ⟨?_, ?_, ?_⟩ <;> rintro rfl <;> exact absurd h (by decide)

theorem splitOn_text {segments : List Segment} (h : ∀ s ∈ segments, '/' ∉ s) :
    (text segments).splitOn '/' = [] :: segments := by
  have hjoin : ∀ (rest : List Segment) (segment : Segment),
      ['/'].intercalate (segment :: rest) = segment ++ text rest := by
    intro rest
    induction rest with
    | nil => intro segment; simp [text]
    | cons next rest ih =>
      intro segment
      rw [List.intercalate_cons_cons, ih next]
      simp [text]
  have h' : ∀ s ∈ [] :: segments, '/' ∉ s := by
    intro s hs
    cases hs with
    | head => exact List.not_mem_nil
    | tail _ hs => exact h s hs
  have hsplit := List.splitOn_intercalate '/' h' (List.cons_ne_nil _ _)
  rwa [hjoin, List.nil_append] at hsplit

/-- What is read of a host, a path and a query that keep to their characters. -/
theorem read_of_parts {host path : List Char} {query : Option (List Char)}
    (hhost : ∀ c ∈ host, c ≠ '#' ∧ c ≠ '?' ∧ c ≠ '/')
    (hpath : ∀ c ∈ '/' :: path, c ≠ '#' ∧ c ≠ '?') (hquery : ∀ q ∈ query, ∀ c ∈ q, c ≠ '#') :
    read ("https://".toList ++ (host ++ '/' :: path ++ queryText query)) =
      .ok ⟨"https://".toList ++ host, resolve (('/' :: path).splitOn '/').tail, query⟩ := by
  have hlocation : ∀ c ∈ host ++ '/' :: path, c ≠ '#' ∧ c ≠ '?' := by
    intro c hc
    exact (List.mem_append.mp hc).elim (fun h => ⟨(hhost c h).1, (hhost c h).2.1⟩) (hpath c)
  have hquestion : ∀ c ∈ queryText query, c ≠ '#' := by
    intro c hc
    cases query with
    | none => exact absurd hc List.not_mem_nil
    | some q =>
      cases hc with
      | head => decide
      | tail _ hc => exact hquery q rfl c hc
  have hrest : (host ++ '/' :: path ++ queryText query).takeWhile (· ≠ '#') =
      host ++ '/' :: path ++ queryText query := by
    rw [List.takeWhile_eq_self_iff]
    intro c hc
    exact decide_eq_true ((List.mem_append.mp hc).elim (fun h => (hlocation c h).1) (hquestion c))
  have hbefore : (queryText query).takeWhile (· ≠ '?') = [] ∧
      ((queryText query).dropWhile (· ≠ '?')).tail? = query := by
    cases query with
    | none => exact ⟨rfl, rfl⟩
    | some q => exact ⟨rfl, rfl⟩
  have hplace : ∀ c ∈ host ++ '/' :: path, decide (c ≠ '?') = true :=
    fun c hc => decide_eq_true (hlocation c hc).2
  have hname : ∀ c ∈ host, decide (c ≠ '/') = true :=
    fun c hc => decide_eq_true (hhost c hc).2.2
  have hhead : ('/' :: path).takeWhile (· ≠ '/') = [] ∧
      ('/' :: path).dropWhile (· ≠ '/') = '/' :: path := ⟨rfl, rfl⟩
  have hdrop : ("https://".toList ++ (host ++ '/' :: path ++ queryText query)).drop 8 =
      host ++ '/' :: path ++ queryText query := List.drop_left' (by decide)
  rw [read, if_pos (List.prefix_append _ _), hdrop, hrest]
  simp only [List.takeWhile_append_of_pos hplace, List.dropWhile_append_of_pos hplace, hbefore.1,
    hbefore.2, List.append_nil, List.takeWhile_append_of_pos hname,
    List.dropWhile_append_of_pos hname, hhead.1, hhead.2]

/-- A front of plain segments after a plain host is read as it is written. -/
theorem reads_read (host : List Char) (below : List Segment) (hhost : Plain host)
    (hbelow : ∀ s ∈ below, Plain s) :
    Reads read ("https://".toList ++ host ++ text below) ("https://".toList ++ host) below := by
  intro segments query hne hsegments hquery
  have hall : ∀ s ∈ below ++ segments, Plain s := by
    intro s hs
    exact (List.mem_append.mp hs).elim (hbelow s) (hsegments s)
  have htext : ∀ c ∈ text (below ++ segments), c ≠ '#' ∧ c ≠ '?' := by
    intro c hc
    obtain ⟨s, hs, hc⟩ := List.mem_flatMap.mp hc
    rcases List.mem_cons.mp hc with rfl | hc
    · decide
    · exact ⟨(ne_of_plain (hall s hs c hc)).1, (ne_of_plain (hall s hs c hc)).2.1⟩
  have hslashes : ∀ s ∈ below ++ segments, '/' ∉ s :=
    fun s hs hslash => (ne_of_plain (hall s hs _ hslash)).2.2 rfl
  have hfront : "https://".toList ++ host ++ text below ++ text segments ++ queryText query =
      "https://".toList ++ (host ++ text (below ++ segments) ++ queryText query) := by
    simp [text]
  obtain ⟨path, hpath⟩ : ∃ path, text (below ++ segments) = '/' :: path := by
    cases hcons : below ++ segments with
    | nil => exact absurd (List.append_eq_nil_iff.mp hcons).2 hne
    | cons segment rest => exact ⟨segment ++ text rest, rfl⟩
  rw [hfront, hpath, read_of_parts (fun c hc => ne_of_plain (hhost c hc)) (hpath ▸ htext)
    (fun q hq c hc => (ne_of_plain (hquery q hq c hc)).1), ← hpath, splitOn_text hslashes]
  rfl

end UrlPath
