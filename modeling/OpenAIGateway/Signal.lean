import OpenAIGateway.HubRequest
import OpenAIGateway.RoutingPolicy

/-!
What the router sees of a request: its rough size, its tools and turns, whether
it holds an image or code and whether it asks for thinking. `toStr` is
serde_json's printer.
-/

set_option linter.all false

namespace OpenAIGateway

/-- `str::contains`. -/
def containsStr (text pattern : String) : Bool := decide (pattern.toList <:+: text.toList)

section Blocks

variable (toStr : Json → String)

mutual

/-- Whether the block is an image or a tool result holding one. -/
def carriesImage : ContentBlock → Bool
  | .image .. => true
  | .toolResult _ content _ => resultCarriesImage content
  | _ => false

def resultCarriesImage : ToolResultContent → Bool
  | .text _ => false
  | .blocks blocks => anyCarriesImage blocks

def anyCarriesImage : List ContentBlock → Bool
  | [] => false
  | b :: blocks => carriesImage b || anyCarriesImage blocks

end

mutual

/-- The bytes of a block; an image is as good as a thousand. -/
def blockLen : ContentBlock → ℕ
  | .text text _ => text.utf8ByteSize
  | .thinking text _ => text.utf8ByteSize
  | .toolUse _ name input => name.utf8ByteSize + (toStr input).utf8ByteSize
  | .image .. => 1000
  | .toolResult _ content _ => resultLen content

def resultLen : ToolResultContent → ℕ
  | .text text => text.utf8ByteSize
  | .blocks blocks => blocksLen blocks

def blocksLen : List ContentBlock → ℕ
  | [] => 0
  | b :: blocks => blockLen b + blocksLen blocks

end

/-- A fenced block or the header of a unified diff. -/
def isCode : ContentBlock → Bool
  | .text text _ =>
    containsStr text "```" || containsStr text "\n@@ " || containsStr text "\n--- "
  | _ => false

end Blocks

namespace HubRequest

variable (toStr : Json → String) (req : HubRequest)

/-- The blocks of the messages, in their order. -/
def content : List ContentBlock := req.messages.flatMap Message.content

/-- Rough prompt size: a token is four bytes. -/
def estimatedPromptTokens : ℕ :=
  let text := blocksLen toStr (req.system ++ req.content)
  let tools := (req.tools.map (fun t => t.name.utf8ByteSize + t.description.utf8ByteSize +
    (toStr t.inputSchema).utf8ByteSize)).sum
  (text + tools) / 4

def hasImages : Bool := req.content.any carriesImage

def hasCode : Bool := (req.system ++ req.content).any isCode

/-- Everything the router needs to classify this request. -/
def signal : RequestSignal where
  promptTokens := req.estimatedPromptTokens toStr
  toolCount := req.tools.length
  turnCount := req.messages.length
  hasImages := req.hasImages
  thinkingRequested := req.thinkingBudget.any (fun budget => 0 < budget) ||
    req.thinkingEffort.any (fun effort => 0 < effort.asBudget)
  hasCode := req.hasCode
  explicitTier := none

end HubRequest

/-- An image somewhere in a block, a tool result's own blocks included. -/
inductive HoldsImage : ContentBlock → Prop
  | image (mediaType data : String) : HoldsImage (.image mediaType data)
  | result (toolUseId : String) (isError : Bool) (blocks : List ContentBlock) (b : ContentBlock)
      (hb : b ∈ blocks) (himage : HoldsImage b) :
      HoldsImage (.toolResult toolUseId (.blocks blocks) isError)

theorem anyCarriesImage_iff {blocks : List ContentBlock} :
    anyCarriesImage blocks = true ↔ ∃ b ∈ blocks, carriesImage b = true := by
  induction blocks with
  | nil => simp [anyCarriesImage]
  | cons b blocks ih =>
    unfold anyCarriesImage
    rw [Bool.or_eq_true, ih]
    simp only [List.mem_cons, exists_eq_or_imp]

theorem carriesImage_of_holdsImage {b : ContentBlock} (h : HoldsImage b) :
    carriesImage b = true := by
  induction h with
  | image mediaType data => unfold carriesImage; rfl
  | result toolUseId isError blocks b hb himage ih =>
    unfold carriesImage resultCarriesImage
    exact anyCarriesImage_iff.mpr ⟨b, hb, ih⟩

/-- However deep a screenshot is in the results of a request, the request has images. -/
theorem hasImages_of_holdsImage {req : HubRequest} {m : Message} {b : ContentBlock}
    (hm : m ∈ req.messages) (hb : b ∈ m.content) (h : HoldsImage b) : req.hasImages = true :=
  List.any_eq_true.mpr
    ⟨b, List.mem_flatMap.mpr ⟨m, hm, hb⟩, carriesImage_of_holdsImage h⟩

end OpenAIGateway
