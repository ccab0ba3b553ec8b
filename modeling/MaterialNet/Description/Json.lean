import MaterialNet.Description.Basic
import MaterialNet.Json.Codec
import MaterialNet.Manifest

namespace MaterialNet

/-!
# Descriptions as JSON

* `Description.toJson`, `Description.ofJson?` — descriptions as JSON values, and back
* `Description.text`, `Description.parse` — descriptions as JSON texts, and back
* `Manifest.toJson` — manifests as JSON values
-/

/-! ### Floats and constants -/

/-- A float; one without a numeral becomes null. -/
def Binary32.toJson (x : Binary32) : Json :=
  if x.isFinite then .number (Layout.json.numeral x) else .null

/-- The float of a number. -/
def Binary32.ofJson? (j : Json) : Option Binary32 := j.reading?.map Reading.toBinary32

namespace Constant

/-- The data of a constant: a number, or an array of components. -/
def data : Constant → Json
  | .float x => x.toJson
  | .integer n => .ofInt n.toInt
  | c => .array (c.components.map Binary32.toJson)

/-- A constant as an object with its type as the only key. -/
def toJson (c : Constant) : Json := .ofMembers [(Named.name c.type, c.data)]

/-- The constant of a type with the given data. -/
def ofData? (data : Json) : ValueType → Option Constant
  | .float => (Binary32.ofJson? data).map .float
  | .vec2 => do
    let [x, y] ← data.list? Binary32.ofJson? | none
    some (.vec2 x y)
  | .vec3 => do
    let [x, y, z] ← data.list? Binary32.ofJson? | none
    some (.vec3 x y z)
  | .vec4 => do
    let [x, y, z, w] ← data.list? Binary32.ofJson? | none
    some (.vec4 x y z w)
  | .integer => (data.integer? (-0x80000000) 0x7fffffff).map fun n => .integer (Int32.ofInt n)
  | .mat4 => do
    let xs ← data.list? Binary32.ofJson?
    if h : xs.toArray.size = 16 then some (.mat4 ⟨xs.toArray, h⟩) else none
  | .texture => none

/-- The constant of a value. -/
def ofJson? (j : Json) : Option Constant := do
  let (name, data) ← j.variant?
  let type ← Named.ofName? name
  ofData? data type

end Constant

/-! ### Kinds -/

namespace NodeKind

/-- A kind as an object whose member `type` names it. -/
def toJson : NodeKind → Json
  | .constant value => .ofMembers [("type", .ofText "Constant"), ("value", value.toJson)]
  | .texture => .ofMembers [("type", .ofText "TextureSample")]
  | .panner x y =>
    .ofMembers [("type", .ofText "Panner"), ("speed", .array [x.toJson, y.toJson])]
  | .unary fn type =>
    .ofMembers [("type", .ofText "Unary"), ("op", .ofChoice fn), ("arity", .ofChoice type)]
  | .binary fn type =>
    .ofMembers [("type", .ofText "Binary"), ("op", .ofChoice fn), ("arity", .ofChoice type)]
  | .sink => .ofMembers [("type", .ofText "Sink")]

/-- The fields of a kind, all of which are needed. -/
def fields? (keys : List String) (j : Json) : Option (List Json) :=
  (j.fields? keys).bind fun fs => fs.mapM id

/-- The kind with the given name and data. -/
def ofData? (data : Json) : String → Option NodeKind
  | "Constant" => do
    let [value] ← fields? ["value"] data | none
    (Constant.ofJson? value).map .constant
  | "TextureSample" => do
    let _ ← data.fields? []
    some .texture
  | "Panner" => do
    let [speed] ← fields? ["speed"] data | none
    let [x, y] ← speed.list? Binary32.ofJson? | none
    some (.panner x y)
  | "Unary" => do
    let [fn, type] ← fields? ["op", "arity"] data | none
    some (.unary (← fn.choice? Json.isNullOrEmpty) (← type.choice? Json.isNullOrEmpty))
  | "Binary" => do
    let [fn, type] ← fields? ["op", "arity"] data | none
    some (.binary (← fn.choice? Json.isNullOrEmpty) (← type.choice? Json.isNullOrEmpty))
  | "Sink" => do
    let _ ← data.fields? []
    some .sink
  | _ => none

/-- The greatest number of brackets open at once in a text, counted at a kind. -/
def bracketLimit : Nat := 127

/-- The kind of a value that stands inside `outside` open brackets.  Its name is the member `type`
    of an object, wherever it stands, or the first item of an array.  A kind is read as a whole
    before it is looked at, so all of it has to be sound. -/
def ofJson? (outside : Nat) (j : Json) : Option NodeKind :=
  if j.isSound (bracketLimit - outside) then
    match j with
    | .object members => do
      let some name ← Json.field? members "type" | none
      ofData? (.object (members.filter fun m => m.1 != some "type")) (← name.text?)
    | .array (name :: rest) => do ofData? (.array rest) (← name.text?)
    | _ => none
  else none

end NodeKind

/-! ### Settings, nodes and connections -/

/-- A 32-bit word. -/
def word32? (j : Json) : Option UInt32 :=
  (j.integer? 0 0xffffffff).map fun n => UInt32.ofNat n.toNat

/-- A 64-bit word. -/
def word64? (j : Json) : Option UInt64 :=
  (j.integer? 0 0xffffffffffffffff).map fun n => UInt64.ofNat n.toNat

namespace Settings

/-- Settings as an object. -/
def toJson (s : Settings) : Json :=
  .ofMembers [("glsl_version", .ofInt s.version.toNat),
    ("texture_unit_base", .ofInt s.textureUnitBase.toNat),
    ("annotate_slots", .bool s.annotateSlots)]

/-- The settings of a value; what is left out has its usual value. -/
def ofJson? (j : Json) : Option Settings := do
  let [version, base, annotate] ←
    j.fields? ["glsl_version", "texture_unit_base", "annotate_slots"] | none
  let usual : Settings := {}
  some {
    version := ← Json.orDefault usual.version word32? version
    textureUnitBase := ← Json.orDefault usual.textureUnitBase word32? base
    annotateSlots := ← Json.orDefault usual.annotateSlots Json.flag? annotate }

end Settings

namespace NodeEntry

/-- A node as an object. -/
def toJson (e : NodeEntry) : Json :=
  .ofMembers [("id", .ofText e.id), ("storage", .ofChoice e.storage), ("kind", e.kind.toJson)]

/-- The node of a value that stands inside `outside` open brackets; its storage may be left
    out. -/
def ofJson? (outside : Nat) (j : Json) : Option NodeEntry := do
  let [some id, storage, some kind] ← j.fields? ["id", "storage", "kind"] | none
  some {
    id := ← id.text?
    storage := ← Json.orDefault .inMain (Json.choice? Json.isNull) storage
    kind := ← NodeKind.ofJson? (outside + 1) kind }

end NodeEntry

namespace Connection

/-- A connection as an object. -/
def toJson (c : Connection) : Json :=
  .ofMembers [("from", .ofText c.source), ("from_port", .ofChoice c.facet),
    ("to", .ofText c.target), ("to_port", .ofInt c.input.toNat)]

/-- The connection of a value; its facet may be left out. -/
def ofJson? (j : Json) : Option Connection := do
  let [some source, facet, some target, some input] ←
    j.fields? ["from", "from_port", "to", "to_port"] | none
  some {
    source := ← source.text?
    facet := ← Json.orDefault .value (Json.choice? Json.isNull) facet
    target := ← target.text?
    input := ← word64? input }

end Connection

/-! ### Descriptions -/

namespace Description

/-- A description as an object. -/
def toJson (d : Description) : Json :=
  .ofMembers [("settings", d.settings.toJson),
    ("nodes", .array (d.nodes.map NodeEntry.toJson)),
    ("connections", .array (d.connections.map Connection.toJson))]

/-- The description of a value; what is left out is usual or empty.  A node stands inside two
    brackets, those of the description and of its list. -/
def ofJson? (j : Json) : Option Description := do
  let [settings, nodes, connections] ← j.fields? ["settings", "nodes", "connections"] | none
  some {
    settings := ← Json.orDefault {} Settings.ofJson? settings
    nodes := ← Json.orDefault [] (Json.list? (NodeEntry.ofJson? 2)) nodes
    connections := ← Json.orDefault [] (Json.list? Connection.ofJson?) connections }

/-- The text of a description. -/
def text (d : Description) : String := d.toJson.pretty

/-- The description of a text. -/
def parse (s : String) : Except Fault Description :=
  match (Json.parse? s).bind ofJson? with
  | some d => .ok d
  | none => .error .unreadable

end Description

/-- The network of a description's text. -/
def Network.buildText (s : String) : Except Fault (Outcome Network Unit) :=
  (Description.parse s).map Network.build

/-! ### Manifests -/

/-- A uniform as an object. -/
def Uniform.toJson (u : Uniform) : Json :=
  .ofMembers [("name", .ofText u.name), ("ty", .ofChoice u.type),
    ("binding", .ofOption (fun unit => .ofInt unit.toNat) u.binding),
    ("default", .ofOption Constant.toJson u.default)]

/-- A manifest as an object. -/
def Manifest.toJson (m : Manifest) : Json :=
  .ofMembers [("entries", .array (m.entries.toList.map Uniform.toJson))]

end MaterialNet
