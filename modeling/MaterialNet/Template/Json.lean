import MaterialNet.Json.Tree
import MaterialNet.Template.Value

namespace MaterialNet

/-!
# Values in templates from JSON

* `Template.Value.ofJson?` — the value that a JSON value stands for
* `Template.Context.ofJson?` — the meaning that an object gives to names
-/

namespace Template

/-- Enters a member into a record; a member that is there already under the same key stays. -/
def enterMember (key : String) (value : Value) : List (String × Value) → List (String × Value)
  | [] => [(key, value)]
  | member :: rest =>
    if key < member.1 then (key, value) :: member :: rest
    else if key = member.1 then member :: rest
    else member :: enterMember key value rest

namespace Value

mutual

/-- The value that a JSON value stands for; `none` if a string in it stands for no text or a number
    is out of range. -/
def ofJson? : Json → Option Value
  | .null => some .nothing
  | .bool b => some (.flag b)
  | .number n => n.read?.map .number
  | .string s => s.map .text
  | .array items => (ofItems? items).map .list
  | .object members => (ofMembers? members).map .record

/-- The values that the items of an array stand for. -/
def ofItems? : List Json → Option (List Value)
  | [] => some []
  | item :: rest =>
    match ofJson? item, ofItems? rest with
    | some value, some values => some (value :: values)
    | _, _ => none

/-- The record of the members of an object, by increasing keys; of members with one key the last
    counts. -/
def ofMembers? : List (Json.Literal × Json) → Option (List (String × Value))
  | [] => some []
  | member :: rest =>
    match ofMember? member, ofMembers? rest with
    | some (key, value), some values => some (enterMember key value values)
    | _, _ => none

/-- The key and the value of a member. -/
def ofMember? : Json.Literal × Json → Option (String × Value)
  | (some key, j) => (ofJson? j).map fun value => (key, value)
  | (none, _) => none

end

end Value

/-- The meaning that a JSON value gives to names: an object means its members, and no name has a
    meaning in any other value. -/
def Context.ofJson? (j : Json) : Option Context :=
  (Value.ofJson? j).map fun
    | .record members => members
    | _ => []

end Template

end MaterialNet
