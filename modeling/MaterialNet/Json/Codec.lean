import MaterialNet.Json.Printer
import MaterialNet.Choices

namespace MaterialNet

/-!
# Reading records and choices

A record may be written as an object or as an array of its fields in order.  A choice without data
may be written as its name, or as an object with that one member.

* `Json.fields?` — the fields of a record
* `Json.choice?` — a named choice
* `Json.variant?` — a choice with data
* `Json.items?`, `Json.text?`, `Json.integer?`, `Json.flag?` — arrays, strings, integers, booleans
-/

namespace Json

/-! ### Single values -/

/-- The text of a string. -/
def text? : Json → Option String
  | .string s => s
  | _ => none

/-- The boolean of a value. -/
def flag? : Json → Option Bool
  | .bool b => some b
  | _ => none

/-- The number of a value. -/
def reading? : Json → Option Reading
  | .number n => n.read?
  | _ => none

/-- An integer between two bounds, written without point and power of ten. -/
def integer? (low high : Int) (j : Json) : Option Int := j.reading?.bind (Reading.toInt? low high)

/-- The items of an array. -/
def items? : Json → Option (List Json)
  | .array items => some items
  | _ => none

/-- The items of an array, each read in the same way. -/
def list? {α : Type} (read : Json → Option α) (j : Json) : Option (List α) :=
  j.items?.bind fun items => items.mapM read

/-! ### Records -/

/-- The values of the members with the given key. -/
def valuesOf (key : String) (members : List (Literal × Json)) : List Json :=
  (members.filter fun m => m.1 == some key).map Prod.snd

/-- The field with the given key among the members of an object: `none` if it occurs more than
    once, and nothing inside if it does not occur. -/
def field? (members : List (Literal × Json)) (key : String) : Option (Option Json) :=
  match valuesOf key members with
  | [] => some none
  | [value] => some (some value)
  | _ => none

/-- The fields of a record with the given keys, nothing standing for a field that is left out.  In
    an object, members with other keys are passed over, but every key has to be a text; an array
    holds the fields in order and may end early. -/
def fields? (keys : List String) : Json → Option (List (Option Json))
  | .object members =>
    if members.all fun m => m.1.isSome then keys.mapM (field? members) else none
  | .array items =>
    if items.length ≤ keys.length then
      some (items.map some ++ List.replicate (keys.length - items.length) none)
    else none
  | _ => none

/-- A field that may be left out. -/
def orDefault {α : Type} (default : α) (read : Json → Option α) : Option Json → Option α
  | some j => read j
  | none => some default

/-! ### Choices -/

/-- A named choice: its name, or an object with its name as the only key, whose value `isUnit`
    accepts. -/
def choice? {α : Type} [Named α] (isUnit : Json → Bool) : Json → Option α
  | .string s => s.bind Named.ofName?
  | .object [(key, value)] => if isUnit value then key.bind Named.ofName? else none
  | _ => none

/-- What stands for no data. -/
def isNull : Json → Bool
  | .null => true
  | _ => false

/-- What stands for no data inside a value that is read as a whole before it is looked at: there an
    empty object will do as well. -/
def isNullOrEmpty : Json → Bool
  | .null | .object [] => true
  | _ => false

/-- The name and the data of a choice with data: an object with one member. -/
def variant? : Json → Option (String × Json)
  | .object [(some key, value)] => some (key, value)
  | _ => none

/-! ### Writing -/

/-- A string. -/
def ofText (s : String) : Json := .string (some s)

/-- An integer. -/
def ofInt (n : Int) : Json := .number (Numeral.ofInt n)

/-- The name of a choice. -/
def ofChoice {α : Type} [Named α] (a : α) : Json := ofText (Named.name a)

/-- An object. -/
def ofMembers (members : List (String × Json)) : Json :=
  .object (members.map fun m => (some m.1, m.2))

/-- A value or null. -/
def ofOption {α : Type} (write : α → Json) : Option α → Json
  | some a => write a
  | none => .null

end Json

end MaterialNet
