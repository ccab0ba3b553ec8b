import MaterialNet.Json.Tree

namespace MaterialNet

/-!
# Printing JSON values

* `Json.compact` — a value without white space
* `Json.pretty` — a value with one item or member a line, indented by two blanks a level
-/

namespace Json

/-! ### Without white space -/

/-- The text of a value without white space. -/
def compact (j : Json) : String := String.join (j.tokens.map Token.text)

/-! ### With white space -/

/-- A token, or white space between tokens. -/
inductive Chunk where
  | token (t : Token)
  | blank
  | newline (indent : Nat)
deriving DecidableEq, Repr

/-- The text of a chunk; a new line starts with two blanks for each level. -/
def Chunk.text : Chunk → String
  | .token t => t.text
  | .blank => " "
  | .newline indent => String.ofList ('\n' :: List.replicate (2 * indent) ' ')

mutual

/-- The chunks of a value whose lines stand at level `indent`. Empty arrays and objects stay on
    their line. -/
def chunks (indent : Nat) : Json → List Chunk
  | .null => [.token .null]
  | .bool b => [.token (.bool b)]
  | .number n => [.token (.number n)]
  | .string s => [.token (.string s)]
  | .array [] => [.token .openArray, .token .closeArray]
  | .array items => .token .openArray :: itemChunks indent items
  | .object [] => [.token .openObject, .token .closeObject]
  | .object members => .token .openObject :: memberChunks indent members

/-- The chunks of the items of an array and of its end. -/
def itemChunks (indent : Nat) : List Json → List Chunk
  | [] => [.newline indent, .token .closeArray]
  | [item] => .newline (indent + 1) :: chunks (indent + 1) item
      ++ [.newline indent, .token .closeArray]
  | item :: next :: rest => .newline (indent + 1) :: chunks (indent + 1) item
      ++ .token .comma :: itemChunks indent (next :: rest)

/-- The chunks of the members of an object and of its end. -/
def memberChunks (indent : Nat) : List (Literal × Json) → List Chunk
  | [] => [.newline indent, .token .closeObject]
  | [member] => .newline (indent + 1) :: pairChunks (indent + 1) member
      ++ [.newline indent, .token .closeObject]
  | member :: next :: rest => .newline (indent + 1) :: pairChunks (indent + 1) member
      ++ .token .comma :: memberChunks indent (next :: rest)

/-- The chunks of a member. -/
def pairChunks (indent : Nat) : Literal × Json → List Chunk
  | (key, value) => .token (.string key) :: .token .colon :: .blank :: chunks indent value

end

/-- The text of a value on several lines. -/
def pretty (j : Json) : String := String.join ((chunks 0 j).map Chunk.text)

end Json

end MaterialNet
