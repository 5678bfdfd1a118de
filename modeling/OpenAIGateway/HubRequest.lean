import OpenAIGateway.Canonical
import OpenAIGateway.ClientStream

/-!
The whole of a request in the hub representation: the conversation and its
tools, with the settings a client gave beside them. Every dialect's request is
parsed to this form and rendered from it; a setting that a dialect has no field
for is refused by its renderer.
-/

set_option linter.all false

namespace OpenAIGateway

/-- How hard a model should think, as the dialects that offer a level say it. -/
inductive Effort
  | off
  | low
  | medium
  | high
  | xHigh
  | max
  | ultra
  deriving DecidableEq, Repr

namespace Effort

def asStr : Effort → String
  | .off => "none"
  | .low => "low"
  | .medium => "medium"
  | .high => "high"
  | .xHigh => "xhigh"
  | .max => "max"
  | .ultra => "ultra"

/-- Read a level; an unknown word is none. -/
def parse (value : String) : Option Effort :=
  match value with
  | "none" | "minimal" => some .off
  | "low" => some .low
  | "medium" => some .medium
  | "high" => some .high
  | "xhigh" => some .xHigh
  | "max" => some .max
  | "ultra" => some .ultra
  | _ => none

def asBudget : Effort → UInt32
  | .off => 0
  | .low => 4096
  | .medium => 8192
  | .high => 16384
  | .xHigh => 32768
  | .max | .ultra => 65536

/-- The nearest level to a budget; any budget above zero is at least `low`. -/
def fromBudget (tokens : UInt32) : Effort :=
  if tokens = 0 then .off
  else if tokens ≥ 65536 then .max
  else if tokens ≥ 32768 then .xHigh
  else if tokens ≥ 16384 then .high
  else if tokens ≥ 8192 then .medium
  else .low

theorem parse_asStr (effort : Effort) : parse effort.asStr = some effort := by
  cases effort <;> rfl

end Effort

/-- The shape the client demanded of the answer. -/
inductive ResponseFormat
  | text
  | jsonObject
  | jsonSchema (name : String) (schema : Json) (strict : Bool)

/-- Whether the format narrows what the model may return. -/
def ResponseFormat.constrainsOutput : ResponseFormat → Bool
  | .text => false
  | _ => true

/-- Fields of a client's body that the hub has no name for, and their dialect. -/
structure Passthrough where
  dialect : Dialect
  body : Json

/-- A request, dialect-independent. -/
structure HubRequest extends CanonicalRequest where
  model : String := ""
  system : List ContentBlock := []
  maxTokens : UInt32
  stream : Bool := false
  temperature : Option Float32 := .none
  thinkingBudget : Option UInt32 := .none
  thinkingEffort : Option Effort := .none
  clientSession : Option String := .none
  responseFormat : Option ResponseFormat := .none
  stop : List String := []
  previousResponseId : Option String := .none
  passthrough : Option Passthrough := .none

/-- A setting the request has and the dialect cannot express. -/
structure UnsupportedField where
  field : String
  dialect : Dialect
  deriving DecidableEq

/-- What a renderer answers: a body, or the field it refuses. -/
abbrev Rendered := Except UnsupportedField Json

section Refusal

variable {p : Prop} [Decidable p] {refusal e : UnsupportedField} {rendered body : Json}

theorem refused_iff :
    (if p then .error refusal else .ok rendered : Rendered) = .error e ↔ p ∧ e = refusal := by
  by_cases hp : p
  · rw [if_pos hp, Except.error.injEq]
    exact ⟨fun h => ⟨hp, h.symm⟩, fun h => h.2.symm⟩
  · rw [if_neg hp]
    constructor
    · intro h
      cases h
    · intro h
      exact absurd h.1 hp

theorem rendered_iff :
    (if p then .error refusal else .ok rendered : Rendered) = .ok body ↔ ¬p ∧ body = rendered := by
  by_cases hp : p
  · rw [if_pos hp]
    constructor
    · intro h
      cases h
    · intro h
      exact absurd hp h.1
  · rw [if_neg hp, Except.ok.injEq]
    exact ⟨fun h => ⟨hp, h.symm⟩, fun h => h.2.symm⟩

end Refusal

namespace HubRequest

/-- What the request asked for by way of thinking, as a budget and a level. -/
def thinkingRequest (req : HubRequest) : Option (UInt32 × Effort) :=
  match req.thinkingBudget.filter (fun budget => 0 < budget) with
  | some budget => some (budget, Effort.fromBudget budget)
  | none =>
    (req.thinkingEffort.filter (fun effort => effort ≠ .off)).map
      (fun effort => (effort.asBudget, effort))

/-- The level a dialect that only speaks levels asks for. -/
def effort (req : HubRequest) : Option Effort :=
  req.thinkingEffort.or (req.thinkingBudget.map Effort.fromBudget)

end HubRequest

/-- `u32::try_from`. -/
def u32TryFrom (n : ℕ) : Option UInt32 := if n < 4294967296 then some (UInt32.ofNat n) else none

theorem u32TryFrom_toNat (n : UInt32) : u32TryFrom n.toNat = some n := by
  unfold u32TryFrom
  rw [if_pos n.toNat_lt, UInt32.ofNat_toNat]

/-- `json!(n)` for a 32-bit integer. -/
def Json.u32 (n : UInt32) : Json := .nat n.toNat

theorem Json.asU64_u32 (n : UInt32) : (Json.u32 n).asU64 = some n.toNat := by
  refine if_pos ?_
  have hlt : n.toNat < 4294967296 := n.toNat_lt
  omega

/-- `str::parse::<u32>`. -/
def parseU32 (text : List Char) : Option ℕ :=
  let digits := if text.head? = some '+' then text.tail else text
  if digits ≠ [] ∧ digits.all Char.isDigit then
    let n := digits.foldl (fun n c => 10 * n + (c.toNat - 48)) 0
    if n < 4294967296 then some n else none
  else none

/-- `str::split` at any of these characters. -/
def splitAny (separators : List Char) : List Char → List (List Char)
  | [] => [[]]
  | c :: rest =>
    if c ∈ separators then [] :: splitAny separators rest
    else
      match splitAny separators rest with
      | [] => [[c]]
      | segment :: segments => (c :: segment) :: segments

/-- The texts among these blocks. -/
def blockTexts (blocks : List ContentBlock) : List String :=
  blocks.filterMap (fun b =>
    match b with
    | .text text _ => some text
    | _ => none)

/-- The result as one string, for dialects that take nothing else. -/
def ToolResultContent.asText : ToolResultContent → String
  | .text s => s
  | .blocks bs => String.intercalate "\n" (blockTexts bs)

end OpenAIGateway
