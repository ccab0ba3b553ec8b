import MaterialNet.Json.Lexer
import MaterialNet.Number.Reading

namespace MaterialNet

/-!
# JSON values

* `Json` — the tree of a JSON value, with numbers and strings as they are written
* `Json.tokens` — the tokens of a value
* `Json.ofTokens?`, `Json.parse?` — the value of tokens and of a text
* `Json.isSound` — no half of a surrogate pair, no number out of range, and not too deep
-/

/-- A JSON value. Members of an object keep their order, and keys may occur more than once. -/
inductive Json where
  | null
  | bool (b : Bool)
  | number (n : Numeral)
  | string (s : Json.Literal)
  | array (items : List Json)
  | object (members : List (Json.Literal × Json))
deriving Repr

namespace Json

/-! ### The tokens of a value -/

mutual

/-- The tokens of a value. -/
def tokens : Json → List Token
  | .null => [.null]
  | .bool b => [.bool b]
  | .number n => [.number n]
  | .string s => [.string s]
  | .array items => .openArray :: itemTokens items
  | .object members => .openObject :: memberTokens members

/-- The tokens of the items of an array and of its end. -/
def itemTokens : List Json → List Token
  | [] => [.closeArray]
  | [item] => item.tokens ++ [.closeArray]
  | item :: next :: rest => item.tokens ++ .comma :: itemTokens (next :: rest)

/-- The tokens of the members of an object and of its end. -/
def memberTokens : List (Literal × Json) → List Token
  | [] => [.closeObject]
  | [member] => pairTokens member ++ [.closeObject]
  | member :: next :: rest => pairTokens member ++ .comma :: memberTokens (next :: rest)

/-- The tokens of a member. -/
def pairTokens : Literal × Json → List Token
  | (key, value) => .string key :: .colon :: value.tokens

end

/-! ### The value of tokens -/

/-- An array or object that has been entered, with what has been read of it, last part first; for
    an object also the key whose value comes next. -/
inductive Frame where
  | array (items : List Json)
  | object (members : List (Literal × Json)) (key : Literal)

/-- Where a reader stands. Every state but the last holds what has been entered and not left, the
    innermost first. -/
inductive Reader where
  /-- Before a value. -/
  | value (stack : List Frame)
  /-- After the start of an array. -/
  | firstItem (stack : List Frame)
  /-- After the start of an object. -/
  | firstKey (stack : List Frame)
  /-- After a comma in an object. -/
  | key (members : List (Literal × Json)) (stack : List Frame)
  /-- After a key. -/
  | colon (members : List (Literal × Json)) (key : Literal) (stack : List Frame)
  /-- After a value. -/
  | after (value : Json) (stack : List Frame)

namespace Reader

/-- Reads a token where a value has to start. -/
def startValue (stack : List Frame) : Token → Option Reader
  | .null => some (.after .null stack)
  | .bool b => some (.after (.bool b) stack)
  | .number n => some (.after (.number n) stack)
  | .string s => some (.after (.string s) stack)
  | .openArray => some (.firstItem stack)
  | .openObject => some (.firstKey stack)
  | .closeArray | .closeObject | .colon | .comma => none

/-- Reads a token. -/
def step : Reader → Token → Option Reader
  | .value stack, t => startValue stack t
  | .firstItem stack, .closeArray => some (.after (.array []) stack)
  | .firstItem stack, t => startValue (.array [] :: stack) t
  | .firstKey stack, .closeObject => some (.after (.object []) stack)
  | .firstKey stack, .string k => some (.colon [] k stack)
  | .firstKey _, _ => none
  | .key members stack, .string k => some (.colon members k stack)
  | .key _ _, _ => none
  | .colon members k stack, .colon => some (.value (.object members k :: stack))
  | .colon _ _ _, _ => none
  | .after v (.array items :: stack), .comma => some (.value (.array (v :: items) :: stack))
  | .after v (.array items :: stack), .closeArray =>
    some (.after (.array (v :: items).reverse) stack)
  | .after v (.object members k :: stack), .comma =>
    some (.key ((k, v) :: members) stack)
  | .after v (.object members k :: stack), .closeObject =>
    some (.after (.object ((k, v) :: members).reverse) stack)
  | .after _ _, _ => none

/-- Reads several tokens. -/
def steps (r : Reader) : List Token → Option Reader
  | [] => some r
  | t :: rest =>
    match r.step t with
    | some r => r.steps rest
    | none => none

end Reader

/-- The value of a list of tokens; `none` unless they are exactly one value. -/
def ofTokens? (ts : List Token) : Option Json :=
  match (Reader.value []).steps ts with
  | some (.after value []) => some value
  | _ => none

/-- The value of a text. -/
def parse? (s : String) : Option Json := (tokens? s).bind ofTokens?

/-! ### Soundness -/

mutual

/-- Every string stands for a text, every number is in range, and no more than `depth` brackets
    are open at once. -/
def isSound (depth : Nat) : Json → Bool
  | .null | .bool _ => true
  | .number n => n.read?.isSome
  | .string s => s.isSome
  | .array items =>
    match depth with
    | 0 => false
    | depth + 1 => areSound depth items
  | .object members =>
    match depth with
    | 0 => false
    | depth + 1 => areSoundMembers depth members

/-- The same for every item of a list. -/
def areSound (depth : Nat) : List Json → Bool
  | [] => true
  | item :: rest => isSound depth item && areSound depth rest

/-- The same for every member of a list, keys included. -/
def areSoundMembers (depth : Nat) : List (Literal × Json) → Bool
  | [] => true
  | member :: rest => isSoundMember depth member && areSoundMembers depth rest

/-- The same for one member. -/
def isSoundMember (depth : Nat) : Literal × Json → Bool
  | (key, value) => key.isSome && isSound depth value

end

end Json

end MaterialNet
