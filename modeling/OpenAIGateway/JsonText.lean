import OpenAIGateway.ReadBack

/-!
Values as serde_json prints them, on one line.
-/

set_option linter.all false

namespace OpenAIGateway

/-- A string between quotes; none of its characters is a control character. -/
def Json.quoted (s : String) : String :=
  "\"" ++ String.ofList (s.toList.flatMap (fun c =>
    if c = '"' ∨ c = '\\' then ['\\', c] else [c])) ++ "\""

def Number.print : Number → String
  | .posInt n => toString n
  | .negInt n => "-" ++ toString n
  | .float bits => toString (Float.ofBits bits)

mutual

def Json.print : Json → String
  | .null => "null"
  | .bool b => if b then "true" else "false"
  | .num n => n.print
  | .str s => Json.quoted s
  | .arr items => "[" ++ Json.printItems items ++ "]"
  | .obj members => "\x7b" ++ Json.printMembers members ++ "\x7d"

def Json.printItems : List Json → String
  | [] => ""
  | [v] => v.print
  | v :: items => v.print ++ "," ++ Json.printItems items

def Json.printMembers : List (String × Json) → String
  | [] => ""
  | [(key, v)] => Json.quoted key ++ ":" ++ v.print
  | (key, v) :: members => Json.quoted key ++ ":" ++ v.print ++ "," ++ Json.printMembers members

end

example : (Json.obj [("a", .arr [.nat 5, .str "x\"y"])]).print =
    "\x7b\"a\":[5,\"x\\\"y\"]\x7d" := by decide +kernel

end OpenAIGateway
