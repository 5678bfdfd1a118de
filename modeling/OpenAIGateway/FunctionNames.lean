import Mathlib.Data.List.Basic

/-!
The names and ids an upstream was sent respelled, and the way back.
A stream restores what it reads through these maps; an empty map is the
identity. The maps hold each key once, as the hash maps they model do.
-/

set_option linter.all false

namespace OpenAIGateway

/-- Tool-call ids respelled for an upstream that holds them to a pattern. -/
structure ToolUseIds where
  toWire : List (String × String) := []
  fromWire : List (String × String) := []
  deriving DecidableEq, Repr

namespace ToolUseIds

def wire (ids : ToolUseIds) (id : String) : String := (ids.toWire.lookup id).getD id

def original (ids : ToolUseIds) (wire : String) : String := (ids.fromWire.lookup wire).getD wire

end ToolUseIds

/-- Original and wire function names of one request. -/
structure FunctionNameMap where
  toWire : List (String × String) := []
  fromWire : List (String × String) := []
  toolUseIds : ToolUseIds := {}
  deriving DecidableEq, Repr

namespace FunctionNameMap

def identity : FunctionNameMap := {}

def wire (names : FunctionNameMap) (original : String) : String :=
  (names.toWire.lookup original).getD original

def original (names : FunctionNameMap) (wire : String) : String :=
  (names.fromWire.lookup wire).getD wire

def originalToolUseId (names : FunctionNameMap) (wire : String) : String :=
  names.toolUseIds.original wire

end FunctionNameMap

end OpenAIGateway
