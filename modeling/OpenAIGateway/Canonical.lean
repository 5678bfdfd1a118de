import OpenAIGateway.Json

/-!
The hub representation of a request: what it says about tools, and the history
of messages with the calls made and answered in it.
-/

set_option linter.all false

namespace OpenAIGateway

inductive Role
  | system
  | user
  | assistant
  | tool
  deriving DecidableEq, Repr

/-- Marks a prompt prefix as cacheable. -/
inductive CacheControl
  | ephemeral
  deriving DecidableEq, Repr

mutual

inductive ContentBlock
  | text (text : String) (cacheControl : Option CacheControl)
  | image (mediaType data : String)
  | toolUse (id name : String) (input : Json)
  | toolResult (toolUseId : String) (content : ToolResultContent) (isError : Bool)
  | thinking (text : String) (signature : Option String)

/-- What a tool result carries: a text, or blocks such as a screenshot. -/
inductive ToolResultContent
  | text (text : String)
  | blocks (blocks : List ContentBlock)

end

structure Message where
  role : Role
  content : List ContentBlock

structure Tool where
  name : String
  description : String := ""
  inputSchema : Json
  cacheControl : Option CacheControl := none

/-- How the client constrained the model's use of tools. -/
inductive ToolChoice
  | auto
  | required
  | none
  | tool (name : String)
  deriving DecidableEq, Repr

structure CanonicalRequest where
  messages : List Message
  tools : List Tool := []
  toolChoice : Option ToolChoice := .none

end OpenAIGateway
