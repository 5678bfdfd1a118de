import OpenAIGateway.Bytes
import OpenAIGateway.Loop
import OpenAIGateway.Utf8

/-!
The AWS event-stream framing: the reader of `take_messages` and
`parse_headers`, and the writer `encode` that stands in for the service. Every
index and slice of the reader is checked, and its loops count their passes, so
`none` is an access outside the buffer or a loop that does not end.
-/

set_option linter.all false

namespace OpenAIGateway.EventStream

open Bytes

/-- Bytes before the headers begin: three `u32` fields. -/
def preludeLen : ℕ := 12

/-- The prelude plus the trailing message checksum. -/
def overhead : ℕ := preludeLen + 4

/-- The largest message the format allows. -/
def maxMessageLen : ℕ := 16 * 1024 * 1024

@[ext]
structure Headers where
  eventType : Option String := none
  exceptionType : Option String := none
  messageType : Option String := none
  errorCode : Option String := none
  errorMessage : Option String := none
  deriving DecidableEq, Repr

structure Message where
  headers : Headers
  payload : List UInt8
  deriving DecidableEq, Repr

def asBytes (s : String) : List UInt8 := Utf8.encode s.toList

def fromUtf8Lossy (b : List UInt8) : String := String.ofList (Utf8.lossy b)

/-- Keep one of the five headers that matter; a value that is not a string clears it. -/
def Headers.set (headers : Headers) (name : String) (value : Option String) : Headers :=
  if name = ":event-type" then { headers with eventType := value }
  else if name = ":exception-type" then { headers with exceptionType := value }
  else if name = ":message-type" then { headers with messageType := value }
  else if name = ":error-code" then { headers with errorCode := value }
  else if name = ":error-message" then { headers with errorMessage := value }
  else headers

/-- Skip a value of `n` bytes; the inner `none` is the `break` of a block that is cut short. -/
def skip (n : ℕ) (b : List UInt8) : Option (Option (Option String × List UInt8)) :=
  if b.length < n then some none
  else do return some (none, ← slice? b n b.length)

/-- A value with a `u16` length in front of it, of which only a string is kept. -/
def counted (isString : Bool) (b : List UInt8) : Option (Option (Option String × List UInt8)) :=
  if b.length < 2 then some none
  else do
    let len ← u16At b 0
    if b.length < 2 + len then return none
    else
      let v ← slice? b 2 (2 + len)
      let b ← slice? b (2 + len) b.length
      return some (if isString then some (fromUtf8Lossy v) else none, b)

/-- The value of a header by its type, and the bytes after it. -/
def headerValue (valueType : ℕ) (b : List UInt8) : Option (Option (Option String × List UInt8)) :=
  match valueType with
  | 0 | 1 => some (some (none, b))
  | 2 => skip 1 b
  | 3 => skip 2 b
  | 4 => skip 4 b
  | 5 => skip 8 b
  | 6 => counted false b
  | 7 => counted true b
  | 8 => skip 8 b
  | 9 => skip 16 b
  | _ => some none

/-- One pass of the loop of `parse_headers`. -/
def headerStep (st : Headers × List UInt8) : Option (Loop.Step (Headers × List UInt8) Headers) :=
  let (headers, b) := st
  if b.length < 2 then some (.done headers)
  else do
    let nameLen := (← b[0]?).toNat
    if b.length < 1 + nameLen + 1 then return .done headers
    else
      let name := fromUtf8Lossy (← slice? b 1 (nameLen + 1))
      let valueType ← b[1 + nameLen]?
      let b ← slice? b (1 + nameLen + 1) b.length
      match ← headerValue valueType.toNat b with
      | none => return .done headers
      | some (value, b) => return .next (headers.set name value, b)

def parseHeaders (b : List UInt8) : Option Headers :=
  Loop.run headerStep (b.length + 1) ({}, b)

/-- The message at the front of `rest` and its length. The inner `none` is a
`break`: no complete message has arrived, or the prelude is malformed. -/
def frontMessage (rest : List UInt8) : Option (Option (Message × ℕ)) :=
  if rest.length < preludeLen then some none
  else do
    let total ← u32At rest 0
    let headersLen ← u32At rest 4
    if ¬ (overhead ≤ total ∧ total ≤ maxMessageLen) ∨ total - overhead < headersLen then
      return none
    else if rest.length < total then return none
    else
      let headers ← parseHeaders (← slice? rest preludeLen (preludeLen + headersLen))
      let payload ← slice? rest (preludeLen + headersLen) (total - 4)
      return some (⟨headers, payload⟩, total)

/-- One pass of the loop of `take_messages`, over what it has taken and consumed. -/
def takeStep (buf : List UInt8) (st : List Message × ℕ) :
    Option (Loop.Step (List Message × ℕ) (List Message × ℕ)) := do
  let (out, consumed) := st
  let rest ← slice? buf consumed buf.length
  match ← frontMessage rest with
  | none => return .done (out, consumed)
  | some (message, total) => return .next (out ++ [message], consumed + total)

/-- The complete messages of a buffer, and the buffer after them. -/
def takeMessages (buf : List UInt8) : Option (List Message × List UInt8) := do
  let (out, consumed) ← Loop.run (takeStep buf) (buf.length + 1) ([], 0)
  return (out, ← slice? buf consumed buf.length)

/-- Append each read to the buffer and take its messages. -/
def feed : List UInt8 → List (List UInt8) → Option (List Message × List UInt8)
  | buf, [] => some ([], buf)
  | buf, read :: reads => do
    let (out, buf) ← takeMessages (buf ++ read)
    let (out', buf) ← feed buf reads
    return (out ++ out', buf)

/-- One bit of the reflected IEEE polynomial. -/
def crcBit (crc : UInt32) : UInt32 :=
  if crc &&& 1 = 1 then (crc >>> 1) ^^^ 0xEDB88320 else crc >>> 1

def crcByte (crc : UInt32) (byte : UInt8) : UInt32 :=
  (List.range 8).foldl (fun crc _ => crcBit crc) (crc ^^^ byte.toUInt32)

def crc32 (bytes : List UInt8) : UInt32 := ~~~ (bytes.foldl crcByte (~~~ 0))

/-- One string header, `none` when its name or its value is too long. -/
def encodeHeader (name value : String) : Option (List UInt8) := do
  let nameLen ← tryFrom 8 (asBytes name).length
  let valueLen ← tryFrom 16 (asBytes value).length
  return [UInt8.ofNat nameLen] ++ asBytes name ++ [7] ++ toBeBytes 2 valueLen ++ asBytes value

def encodeHeaders : List (String × String) → Option (List UInt8)
  | [] => some []
  | (name, value) :: headers => do return (← encodeHeader name value) ++ (← encodeHeaders headers)

/-- The length fields, the headers and the payload between the two checksums. -/
def encode (headers : List (String × String)) (payload : List UInt8) : Option (List UInt8) := do
  let block ← encodeHeaders headers
  let total := overhead + block.length + payload.length
  let lengths := toBeBytes 4 (← tryFrom 32 total) ++ toBeBytes 4 (← tryFrom 32 block.length)
  let out := lengths ++ toBeBytes 4 (crc32 lengths).toNat ++ block ++ payload
  return out ++ toBeBytes 4 (crc32 out).toNat

-- The check value of the algorithm, as zlib computes it.
example : crc32 (asBytes "123456789") = 0xCBF43926 := by decide +kernel

end OpenAIGateway.EventStream
