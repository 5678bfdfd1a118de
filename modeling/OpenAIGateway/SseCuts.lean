import OpenAIGateway.Lines
import OpenAIGateway.SseFraming

/-!
What the pump takes out of its buffer, for any way the bytes arrive. Each
take is the longest prefix that ends in a blank line with a line before it,
and so a group of whole lines; the groups and what is left make up the
stream. A group's payloads are its lines' payloads if all of it is UTF-8.
-/

set_option linter.all false

namespace OpenAIGateway.Sse

open Lines
open Utf8 (newline decode?)

/-- The bytes end in a blank line that follows a line break. -/
def BlankEnd (x : List UInt8) : Prop :=
  [newline, newline] <:+ x ∨ [newline, cr, newline] <:+ x

/-- Suffixes of one length are compared entry by entry. -/
theorem suffix_append_iff {xs ys : List UInt8} (zs : List UInt8) (h : xs.length = ys.length) :
    xs <:+ zs ++ ys ↔ xs = ys := by
  constructor
  · rintro ⟨t, ht⟩
    exact (List.append_inj' ht h).2
  · rintro rfl
    exact List.suffix_append zs xs

theorem isBlankBreak_iff (buf : List UInt8) {i : ℕ} (hi : 1 ≤ i) (hlt : i < buf.length) :
    isBlankBreak buf i = true ↔ BlankEnd (buf.take (i + 1)) := by
  obtain ⟨j, rfl⟩ : ∃ j, i = j + 1 := ⟨i - 1, by omega⟩
  have hj : j < buf.length := by omega
  have htake : buf.take (j + 2) = buf.take j ++ [buf[j], buf[j + 1]] := by
    have hlast : buf.take (j + 1 + 1) = buf.take (j + 1) ++ [buf[j + 1]] :=
      List.take_succ_eq_append_getElem hlt
    rw [hlast, List.take_succ_eq_append_getElem hj, List.append_assoc]
    rfl
  have hpair : [newline, newline] <:+ buf.take (j + 2) ↔ buf[j] = newline ∧ buf[j + 1] = newline := by
    rw [htake, suffix_append_iff _ (by simp)]
    simp [eq_comm]
  unfold isBlankBreak BlankEnd
  rw [hpair]
  simp only [Nat.add_sub_cancel, List.getElem?_eq_getElem hlt, List.getElem?_eq_getElem hj]
  cases j with
  | zero =>
    have hshort : ¬ [newline, cr, newline] <:+ buf.take 2 := by
      intro hsuffix
      have := hsuffix.length_le
      have := List.length_take_le 2 buf
      simp only [List.length_cons, List.length_nil] at *
      omega
    simp [hshort, and_comm]
  | succ k =>
    have hk : k < buf.length := by omega
    have htriple : [newline, cr, newline] <:+ buf.take (k + 1 + 2) ↔
        buf[k] = newline ∧ buf[k + 1] = cr ∧ buf[k + 2] = newline := by
      rw [htake, List.take_succ_eq_append_getElem hk, List.append_assoc,
        suffix_append_iff _ (by simp)]
      simp [eq_comm]
    rw [htriple]
    have htwo : k + 1 + 1 - 2 = k := by omega
    simp only [htwo, List.getElem?_eq_getElem hk]
    simp
    tauto

/-- The break found is one, and no later one is. -/
theorem lastBlankLine_spec (buf : List UInt8) :
    (lastBlankLine buf = none ∧ ∀ i, 1 ≤ i → i < buf.length → isBlankBreak buf i = false) ∨
      ∃ idx, lastBlankLine buf = some idx ∧ 1 ≤ idx ∧ idx < buf.length ∧
        isBlankBreak buf idx = true ∧
        ∀ i, idx < i → i < buf.length → isBlankBreak buf i = false := by
  have hmem : ∀ i, i ∈ (List.range' 1 (buf.length - 1)).reverse ↔ 1 ≤ i ∧ i < buf.length := by
    intro i
    rw [List.mem_reverse, List.mem_range'_1]
    omega
  unfold lastBlankLine
  cases hfind : (List.range' 1 (buf.length - 1)).reverse.find? (isBlankBreak buf) with
  | none =>
    left
    refine ⟨rfl, fun i hi hlt => ?_⟩
    have hnot := List.find?_eq_none.mp hfind i ((hmem i).mpr ⟨hi, hlt⟩)
    simpa using hnot
  | some idx =>
    right
    obtain ⟨hblank, later, earlier, hsplit, hlater⟩ := List.find?_eq_some_iff_append.mp hfind
    have hidx := (hmem idx).mp (by rw [hsplit]; simp)
    refine ⟨idx, rfl, hidx.1, hidx.2, hblank, fun i hi hlt => ?_⟩
    have hi' : i ∈ later ++ idx :: earlier := by
      rw [← hsplit]
      exact (hmem i).mpr ⟨by omega, hlt⟩
    have hsorted : (later ++ idx :: earlier).Pairwise (· > ·) := by
      rw [← hsplit, List.pairwise_reverse]
      exact List.pairwise_lt_range'
    rcases List.mem_append.mp hi' with hmem' | hmem'
    · simpa using hlater i hmem'
    · exfalso
      rw [List.pairwise_append] at hsorted
      rcases List.mem_cons.mp hmem' with heq | hearlier
      · omega
      · have := List.rel_of_pairwise_cons hsorted.2.1 hearlier
        omega

/-- A take is the longest prefix that ends in a blank line after a break. -/
theorem takeSsePayloads_spec (buf : List UInt8) :
    (takeSsePayloads buf = (buf, []) ∧ ∀ x y, buf = x ++ y → ¬ BlankEnd x) ∨
      ∃ x y, buf = x ++ y ∧ BlankEnd x ∧ takeSsePayloads buf = (y, framePayloads x) ∧
        ∀ x' y', buf = x' ++ y' → BlankEnd x' → x'.length ≤ x.length := by
  have hbreak : ∀ x y, buf = x ++ y → BlankEnd x →
      1 ≤ x.length - 1 ∧ x.length - 1 < buf.length ∧ isBlankBreak buf (x.length - 1) = true := by
    intro x y hbuf hblank
    have hlen : 2 ≤ x.length := by
      rcases hblank with h | h
      · simpa using h.length_le
      · have := h.length_le
        simp only [List.length_cons, List.length_nil] at this
        omega
    have hlt : x.length - 1 < buf.length := by
      rw [hbuf, List.length_append]
      omega
    have htake : buf.take (x.length - 1 + 1) = x := by
      have heq : x.length - 1 + 1 = x.length := by omega
      rw [heq, hbuf, List.take_left]
    refine ⟨by omega, hlt, ?_⟩
    rw [isBlankBreak_iff buf (by omega) hlt, htake]
    exact hblank
  unfold takeSsePayloads
  rcases lastBlankLine_spec buf with ⟨hnone, hall⟩ | ⟨idx, hsome, hidx, hlt, hblank, hlast⟩
  · left
    rw [hnone]
    refine ⟨rfl, fun x y hbuf hend => ?_⟩
    obtain ⟨hpos, hlt, htrue⟩ := hbreak x y hbuf hend
    rw [hall _ hpos hlt] at htrue
    cases htrue
  · right
    rw [hsome]
    refine ⟨buf.take (idx + 1), buf.drop (idx + 1), (List.take_append_drop _ _).symm,
      (isBlankBreak_iff buf hidx hlt).mp hblank, rfl, fun x' y' hbuf hend => ?_⟩
    obtain ⟨hpos, hlt', htrue⟩ := hbreak x' y' hbuf hend
    rw [List.length_take]
    by_contra hlong
    rw [hlast (x'.length - 1) (by omega) hlt'] at htrue
    cases htrue

/-- A blank line, without its newline. -/
def IsBlank (l : List UInt8) : Prop := l = [] ∨ l = [cr]

/-- A group of lines that ends in a blank one, with a line before it. -/
def GroupEnd (group : List (List UInt8)) : Prop :=
  ∃ init b, group = init ++ [b] ∧ init ≠ [] ∧ IsBlank b

theorem blankEnd_join_iff {group : List (List UInt8)} (hclean : Clean newline group) :
    BlankEnd (join newline group) ↔ GroupEnd group := by
  constructor
  · intro hblank
    rcases List.eq_nil_or_concat' group with rfl | ⟨init, b, rfl⟩
    · rcases hblank with h | h <;> simpa using h.length_le
    have hb : newline ∉ b := hclean b (by simp)
    have hjoin : join newline (init ++ [b]) = join newline init ++ b ++ [newline] := by simp
    rw [hjoin] at hblank
    have hends : ∀ t b, newline ∉ b → t ++ [newline] = join newline init ++ b →
        init ≠ [] ∧ b = [] := by
      intro t b hb ht
      rcases List.eq_nil_or_concat' b with rfl | ⟨b', last, rfl⟩
      · refine ⟨?_, rfl⟩
        intro hnil
        rw [hnil] at ht
        simp at ht
      · rw [← List.append_assoc] at ht
        have hlast := (List.append_inj' ht rfl).2
        exact absurd (by rw [← hlast]; simp) hb
    rcases hblank with ⟨t, ht⟩ | ⟨t, ht⟩
    · have hcut : t ++ [newline] = join newline init ++ b := by
        have hassoc : (t ++ [newline]) ++ [newline] = join newline init ++ b ++ [newline] := by
          rw [← ht]
          simp
        exact (List.append_inj' hassoc rfl).1
      obtain ⟨hinit, hnil⟩ := hends t b hb hcut
      exact ⟨init, b, rfl, hinit, Or.inl hnil⟩
    · have hcut : (t ++ [newline]) ++ [cr] = join newline init ++ b := by
        have hassoc : (t ++ [newline] ++ [cr]) ++ [newline] =
            join newline init ++ b ++ [newline] := by
          rw [← ht]
          simp
        exact (List.append_inj' hassoc rfl).1
      rcases List.eq_nil_or_concat' b with rfl | ⟨b', last, rfl⟩
      · rw [List.append_nil] at hcut
        rcases join_eq_nil_or newline init with rfl | ⟨z, hz⟩
        · simp at hcut
        · rw [hz] at hcut
          have hbyte := (List.append_inj' hcut rfl).2
          exact absurd hbyte (by decide)
      · rw [← List.append_assoc] at hcut
        obtain ⟨hinner, hlast⟩ := List.append_inj' hcut rfl
        obtain ⟨hinit, rfl⟩ := hends t b' (fun hmem => hb (by simp [hmem])) hinner
        exact ⟨init, [last], rfl, hinit, Or.inr hlast.symm⟩
  · rintro ⟨init, b, rfl, hinit, hb⟩
    rcases join_eq_nil_or newline init with rfl | ⟨z, hz⟩
    · exact absurd rfl hinit
    · rcases hb with rfl | rfl
      · exact Or.inl ⟨z, by simp [hz]⟩
      · exact Or.inr ⟨z, by simp [hz]⟩

/-- The pump after some bytes: it has taken whole groups of lines, handed on
their payloads, and holds no blank line but perhaps a first one. -/
structure Taken (stream : List UInt8) (pump : Pump) (groups : List (List (List UInt8))) : Prop where
  stream_eq : stream = join newline groups.flatten ++ pump.pending
  payloads_eq : pump.payloads = groups.flatMap (fun group => framePayloads (join newline group))
  clean : Clean newline groups.flatten
  ends : ∀ group ∈ groups, GroupEnd group
  pending : ∀ x y, pump.pending = x ++ y → ¬ BlankEnd x

theorem BlankEnd.newline {x : List UInt8} (h : BlankEnd x) : ∃ z, x = z ++ [newline] := by
  rcases h with ⟨t, rfl⟩ | ⟨t, rfl⟩
  · exact ⟨t ++ [Utf8.newline], by simp⟩
  · exact ⟨t ++ [Utf8.newline, cr], by simp⟩

theorem BlankEnd.ne_nil {x : List UInt8} (h : BlankEnd x) : x ≠ [] := by
  obtain ⟨z, rfl⟩ := h.newline
  simp

theorem BlankEnd.append_left {x : List UInt8} (h : BlankEnd x) (w : List UInt8) :
    BlankEnd (w ++ x) := by
  rcases h with h | h
  · exact Or.inl (h.trans (List.suffix_append w x))
  · exact Or.inr (h.trans (List.suffix_append w x))

theorem Pump.read_eq {pump : Pump} {chunk pending : List UInt8} {payloads : List String}
    (h : takeSsePayloads (pump.pending ++ chunk) = (pending, payloads)) :
    pump.read chunk = ⟨pending, pump.payloads ++ payloads⟩ := by
  simp only [Pump.read, h]

/-- One read keeps it, with at most one more group. -/
theorem Taken.read {stream : List UInt8} {pump : Pump} {groups : List (List (List UInt8))}
    (h : Taken stream pump groups) (chunk : List UInt8) :
    ∃ groups', Taken (stream ++ chunk) (pump.read chunk) groups' := by
  rcases takeSsePayloads_spec (pump.pending ++ chunk) with
    ⟨htake, hnone⟩ | ⟨x, y, hsplit, hblank, htake, hlongest⟩
  · rw [Pump.read_eq htake]
    refine ⟨groups, ?_, ?_, h.clean, h.ends, hnone⟩
    · rw [h.stream_eq, List.append_assoc]
    · rw [h.payloads_eq, List.append_nil]
  · obtain ⟨ls, rest, hlines, hclean, hrest⟩ := exists_lines newline (pump.pending ++ chunk)
    obtain ⟨group, back, rfl, rfl, -⟩ := join_prefix (hlines.symm.trans hsplit) hclean hrest
      (Or.inr hblank.newline)
    have hgroup := (clean_append.mp hclean).1
    rw [Pump.read_eq htake]
    refine ⟨groups ++ [group], ?_, ?_, ?_, ?_, ?_⟩
    · rw [h.stream_eq, List.append_assoc, hsplit]
      simp
    · rw [h.payloads_eq]
      simp
    · simpa using clean_append.mpr ⟨h.clean, hgroup⟩
    · intro g hg
      rcases List.mem_append.mp hg with hg | hg
      · exact h.ends g hg
      · rw [List.mem_singleton.mp hg]
        exact (blankEnd_join_iff hgroup).mp hblank
    · intro x' y' hy' hblank'
      have hlong := hlongest (join newline group ++ x') y'
        (by rw [hsplit, show y = x' ++ y' from hy']; simp) (hblank'.append_left _)
      have hpos := List.length_pos_iff.mpr hblank'.ne_nil
      rw [List.length_append] at hlong
      omega

theorem taken_reads (reads : List (List UInt8)) {stream : List UInt8} {pump : Pump}
    {groups : List (List (List UInt8))} (h : Taken stream pump groups) :
    ∃ groups', Taken (stream ++ reads.flatten) (reads.foldl Pump.read pump) groups' := by
  induction reads generalizing stream pump groups with
  | nil => exact ⟨groups, by simpa using h⟩
  | cons chunk rest ih =>
    obtain ⟨groups', h'⟩ := h.read chunk
    obtain ⟨groups'', h''⟩ := ih h'
    exact ⟨groups'', by simpa using h''⟩

theorem taken_start : Taken [] {} [] where
  stream_eq := rfl
  payloads_eq := rfl
  clean := by simp [Clean]
  ends := by simp
  pending := by
    intro x y h hblank
    exact hblank.ne_nil (List.append_eq_nil_iff.mp h.symm).1

/-- The tail fold finds nothing more. -/
theorem Taken.finish {stream : List UInt8} {pump : Pump} {groups : List (List (List UInt8))}
    (h : Taken stream pump groups) : pump.finish = pump.payloads := by
  unfold Pump.finish
  split
  · rfl
  · rcases takeSsePayloads_spec pump.pending with ⟨htake, -⟩ | ⟨x, y, hsplit, hblank, -, -⟩
    · rw [htake, List.append_nil]
    · exact absurd hblank (h.pending x y hsplit)

/-- However the bytes arrive, the payloads are those of groups of lines which,
with what is left, make up the stream. -/
theorem runReads_groups (reads : List (List UInt8)) :
    ∃ (groups : List (List (List UInt8))) (rest : List UInt8),
      reads.flatten = join newline groups.flatten ++ rest ∧
      runReads reads = groups.flatMap (fun group => framePayloads (join newline group)) ∧
      Clean newline groups.flatten ∧ (∀ group ∈ groups, GroupEnd group) ∧
      ∀ x y, rest = x ++ y → ¬ BlankEnd x := by
  obtain ⟨groups, h⟩ := taken_reads reads taken_start
  refine ⟨groups, (reads.foldl Pump.read {}).pending, ?_, ?_, h.clean, h.ends, h.pending⟩
  · simpa using h.stream_eq
  · unfold runReads
    rw [h.finish, h.payloads_eq]

end OpenAIGateway.Sse
