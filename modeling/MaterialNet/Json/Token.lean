import MaterialNet.Number.Numeral

namespace MaterialNet

/-!
# JSON tokens

* `Json.Token` — the tokens of a JSON text, with `Token.text` for their spelling
* `Json.escaped` — how a character stands in a string literal
-/

namespace Json

/-- What a string literal stands for. Escapes can write half of a surrogate pair; a literal in
    which one stands alone is well formed but stands for no text. -/
abbrev Literal := Option String

/-- A token of a JSON text. -/
inductive Token where
  | openObject
  | closeObject
  | openArray
  | closeArray
  | colon
  | comma
  | null
  | bool (b : Bool)
  | number (n : Numeral)
  | string (s : Literal)
deriving DecidableEq, Repr

/-! ### Spelling -/

/-- Whether a character is below the space, so that a literal has to escape it. -/
def isControl (c : Char) : Bool := c.toNat < 32

/-- The hexadecimal digit of a number below 16, in lower case. -/
def hexDigit (n : Nat) : Char := if n < 10 then Char.ofNat (48 + n) else Char.ofNat (87 + n)

/-- A character in a string literal: quotes, backslashes and control characters are escaped, the
    usual control characters by a letter and the others by their number. -/
def escaped (c : Char) : List Char :=
  match c with
  | '"' => ['\\', '"']
  | '\\' => ['\\', '\\']
  | '\x08' => ['\\', 'b']
  | '\x0c' => ['\\', 'f']
  | '\n' => ['\\', 'n']
  | '\r' => ['\\', 'r']
  | '\t' => ['\\', 't']
  | c =>
    if isControl c then ['\\', 'u', '0', '0', hexDigit (c.toNat / 16), hexDigit (c.toNat % 16)]
    else [c]

/-- The characters of a string literal. -/
def literalChars (s : String) : List Char := '"' :: s.toList.flatMap escaped ++ ['"']

/-- The characters of a token. A literal without text is spelled as the empty one. -/
def Token.chars : Token → List Char
  | .openObject => ['\x7b']
  | .closeObject => ['\x7d']
  | .openArray => ['[']
  | .closeArray => [']']
  | .colon => [':']
  | .comma => [',']
  | .null => ['n', 'u', 'l', 'l']
  | .bool true => ['t', 'r', 'u', 'e']
  | .bool false => ['f', 'a', 'l', 's', 'e']
  | .number n => n.chars
  | .string s => literalChars (s.getD "")

/-- The text of a token. -/
def Token.text (t : Token) : String := String.ofList t.chars

end Json

end MaterialNet
