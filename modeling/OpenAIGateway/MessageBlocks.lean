import OpenAIGateway.CollectedReadBack
import OpenAIGateway.Runs

/-!
What the blocks of an Anthropic message say: text, thinking and calls. A block
of any other kind says nothing; an id, a name or a text that is no string is
read as empty.
-/

set_option linter.all false

namespace OpenAIGateway

/-- A call of a message, with its input as it stands there. -/
structure MessageCall where
  id : String
  name : String
  input : Json

inductive Said
  | text (words : String)
  | thinking (words : String)
  | call (c : MessageCall)

/-- What a block of a message says. -/
def said (block : Json) : Option Said :=
  match block["type"].asStr.getD "" with
  | "text" => some (.text (block["text"].asStr.getD ""))
  | "thinking" => some (.thinking (block["thinking"].asStr.getD ""))
  | "tool_use" =>
      some (.call ⟨block["id"].asStr.getD "", block["name"].asStr.getD "", block["input"]⟩)
  | _ => none

namespace Said

/-- Runs of one kind are one run. -/
def glue : Said → Said → Option Said
  | .text a, .text b => some (.text (a ++ b))
  | .thinking a, .thinking b => some (.thinking (a ++ b))
  | _, _ => none

theorem lawful_glue : Runs.Lawful glue where
  right := by
    intro a b c h d
    cases a <;> cases b <;> cases h <;> cases d <;> simp [glue, String.append_assoc]
  left := by
    intro b d e h a
    cases b <;> cases d <;> cases h <;> cases a <;> rfl

def words : Said → String
  | .text words => words
  | _ => ""

def thoughts : Said → String
  | .thinking words => words
  | _ => ""

def calls : Said → List MessageCall
  | .call c => [c]
  | _ => []

/-- The block that says this. -/
def block : Said → Json
  | .text words => .obj [("type", .str "text"), ("text", .str words)]
  | .thinking words => .obj [("type", .str "thinking"), ("thinking", .str words)]
  | .call c => .obj [("type", .str "tool_use"), ("id", .str c.id), ("name", .str c.name),
      ("input", c.input)]

theorem said_block (s : Said) : said s.block = some s := by
  cases s <;> rfl

theorem filterMap_said_block (ss : List Said) : (ss.map block).filterMap said = ss := by
  rw [List.filterMap_map]
  calc ss.filterMap (said ∘ block) = ss.filterMap some :=
        List.filterMap_congr (fun s _ => said_block s)
    _ = ss := List.filterMap_some

end Said

/-- What a message says, block by block. -/
def saidIn (message : Json) : List Said := (blocksOf message).filterMap said

/-- The calls of a message, in order. -/
def callsIn (message : Json) : List MessageCall := (saidIn message).flatMap Said.calls

/-- The text of a message, run together. -/
def textIn (message : Json) : String := String.join ((saidIn message).map Said.words)

def thinkingIn (message : Json) : String := String.join ((saidIn message).map Said.thoughts)

/-- Counts that were read are machine words. -/
theorem Anthropic.word_parseUsage (v : Json) : Chat.Word (Anthropic.parseUsage v) := by
  have hbound : ∀ count : Json, count.asU64.getD 0 < 2 ^ 64 := by
    intro count
    unfold Json.asU64
    split
    · split
      · rename_i hlt
        exact hlt
      · decide
    · decide
  exact ⟨hbound _, hbound _, hbound _, hbound _⟩

end OpenAIGateway
