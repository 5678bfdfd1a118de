import Mathlib.Data.List.Range
import OpenAIGateway.Utf8

/-!
Framing of an upstream SSE body. Reads are appended to a buffer, everything
up to its last blank line is taken out, and the `data:` payloads of that text
are handed on. What the buffer still holds at the end of the body is tried
once more.
-/

set_option linter.all false

namespace OpenAIGateway.Sse

open Utf8 (newline)

/-- The carriage return. -/
def cr : UInt8 := 13

/-- A blank line is one break immediately followed by another, LF or CRLF. -/
def isBlankBreak (buf : List UInt8) (i : ℕ) : Bool :=
  buf[i]? = some newline &&
    (buf[i - 1]? = some newline || (2 ≤ i && buf[i - 1]? = some cr && buf[i - 2]? = some newline))

/-- The index of the final newline of the last blank line in `buf`. -/
def lastBlankLine (buf : List UInt8) : Option ℕ :=
  (List.range' 1 (buf.length - 1)).reverse.find? (isBlankBreak buf)

/-- One trailing carriage return less, for a line that ended in CRLF. -/
def stripCr (line : List Char) : List Char :=
  if line.getLast? = some '\r' then line.dropLast else line

/-- The lines after a line begun with `acc`; the last may lack its newline,
and then keeps its carriage return. -/
def linesFrom (acc : List Char) : List Char → List (List Char)
  | [] => if acc = [] then [] else [acc]
  | c :: rest =>
      if c = '\n' then stripCr acc :: linesFrom [] rest else linesFrom (acc ++ [c]) rest

/-- `str::lines`. -/
def lines (text : List Char) : List (List Char) := linesFrom [] text

/-- Unicode `White_Space`. -/
def isWhitespace (c : Char) : Bool :=
  let n := c.toNat
  (9 ≤ n && n ≤ 13) || n = 0x20 || n = 0x85 || n = 0xA0 || n = 0x1680 ||
    (0x2000 ≤ n && n ≤ 0x200A) || n = 0x2028 || n = 0x2029 || n = 0x202F || n = 0x205F ||
    n = 0x3000

/-- `str::trim`. -/
def trim (text : List Char) : List Char :=
  ((text.dropWhile isWhitespace).reverse.dropWhile isWhitespace).reverse

/-- Visible ASCII is not whitespace. -/
theorem isWhitespace_of_visible {c : Char} (h : 33 ≤ c.toNat ∧ c.toNat ≤ 126) :
    isWhitespace c = false := by
  simp only [isWhitespace, Bool.or_eq_false_iff, Bool.and_eq_false_iff, decide_eq_false_iff_not]
  omega

theorem trim_of_forall {text : List Char} (h : ∀ c ∈ text, isWhitespace c = false) :
    trim text = text := by
  have hkept : ∀ l : List Char, (∀ c ∈ l, isWhitespace c = false) →
      l.dropWhile isWhitespace = l := by
    intro l hl
    cases l with
    | nil => rfl
    | cons c l =>
      rw [List.dropWhile_cons_of_neg]
      rw [hl c List.mem_cons_self]
      decide
  rw [trim, hkept text h, hkept text.reverse fun c hc => h c (List.mem_reverse.mp hc),
    List.reverse_reverse]

theorem mem_of_mem_trim {c : Char} {text : List Char} (h : c ∈ trim text) : c ∈ text := by
  have hreverse := List.mem_reverse.mp h
  have hback := List.mem_reverse.mp ((List.dropWhile_sublist _).mem hreverse)
  exact (List.dropWhile_sublist _).mem hback

/-- What follows `data:` on a line that starts with it. -/
def dataField (line : List Char) : Option (List Char) :=
  if "data:".toList.isPrefixOf line then some (line.drop "data:".toList.length) else none

/-- The payloads of some lines: their `data:` fields, but for empty ones and
the sentinel some dialects end with. -/
def linePayloads (ls : List (List Char)) : List String :=
  (((ls.filterMap dataField).map trim).filter
    (fun p => p ≠ [] ∧ p ≠ "[DONE]".toList)).map String.ofList

/-- The payloads of complete frames; none at all if they are not UTF-8. -/
def framePayloads (complete : List UInt8) : List String :=
  match Utf8.decode? complete with
  | none => []
  | some text => linePayloads (lines text)

/-- The payloads of every complete frame in `buf`, and what is left of it. -/
def takeSsePayloads (buf : List UInt8) : List UInt8 × List String :=
  match lastBlankLine buf with
  | none => (buf, [])
  | some idx => (buf.drop (idx + 1), framePayloads (buf.take (idx + 1)))

/-- The pump's buffer, and the payloads it has handed on. -/
structure Pump where
  pending : List UInt8 := []
  payloads : List String := []

/-- One turn of the pump's loop. -/
def Pump.read (pump : Pump) (chunk : List UInt8) : Pump :=
  let taken := takeSsePayloads (pump.pending ++ chunk)
  ⟨taken.1, pump.payloads ++ taken.2⟩

/-- Whatever is left is tried once more, in case it completed exactly at EOF. -/
def Pump.finish (pump : Pump) : List String :=
  if pump.pending.isEmpty then pump.payloads
  else pump.payloads ++ (takeSsePayloads pump.pending).2

/-- All the payloads of a body that arrives as `reads`. -/
def runReads (reads : List (List UInt8)) : List String := (reads.foldl Pump.read {}).finish

end OpenAIGateway.Sse
