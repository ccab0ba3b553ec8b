import MaterialNet.Number.Layout
import MaterialNet.Number.Reading
import MaterialNet.Text.Quoted

namespace MaterialNet

/-!
# Values in templates

* `Template.Value` — what a name of a template can stand for
* `Template.Value.print` — the text of a value where a variable stands
* `Template.Value.items?` — the values that a loop over a value runs through
* `Template.Context` — the meaning of the names
-/

namespace Template

/-- A value that a template can be given. The keys of a record are in increasing order. -/
inductive Value where
  | nothing
  | flag (b : Bool)
  | number (n : Reading)
  | text (s : String)
  | list (items : List Value)
  | record (members : List (String × Value))
deriving Repr

/-- The meaning of names; the first entry for a name counts. -/
abbrev Context := List (String × Value)

/-- A number with the floats in the given layout. -/
def numberText (L : Layout) : Reading → String
  | .integer n => toString n
  | .double negative code => (L.numeralOf Format.binary64 negative code).text

/-! ### The text of a value -/

namespace Value

/-- The text of a truth value. -/
def flagText (b : Bool) : String := if b then "True" else "False"

mutual

/-- The text of a value inside a list or a record: a text is quoted, and a float is laid out as in
    shader text. -/
def item : Value → String
  | .nothing => "None"
  | .flag b => flagText b
  | .number n => numberText Layout.shader n
  | .text s => quoted s
  | .list items => "[" ++ ", ".intercalate (itemTexts items) ++ "]"
  | .record members => "\x7b" ++ ", ".intercalate (memberTexts members) ++ "\x7d"

/-- The texts of the values in a list. -/
def itemTexts : List Value → List String
  | [] => []
  | value :: rest => value.item :: itemTexts rest

/-- The texts of the members of a record. -/
def memberTexts : List (String × Value) → List String
  | [] => []
  | member :: rest => memberText member :: memberTexts rest

/-- The text of a member of a record. -/
def memberText : String × Value → String
  | (key, value) => quoted key ++ ": " ++ value.item

end

/-- The text of a value where a variable stands: a text is inserted as it is, and a float has all
    its digits in place. -/
def print : Value → String
  | .text s => s
  | .number n => numberText Layout.inPlace n
  | value => value.item

/-! ### Loops -/

/-- The values that a loop runs through: the items of a list, the keys of a record, the characters
    of a text, and none for nothing at all; a truth value or a number has none to give. -/
def items? : Value → Option (List Value)
  | .nothing => some []
  | .list items => some items
  | .record members => some (members.map fun m => .text m.1)
  | .text s => some (s.toList.map fun c => .text (String.singleton c))
  | .flag _ | .number _ => none

end Value

end Template

end MaterialNet
