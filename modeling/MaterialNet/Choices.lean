namespace MaterialNet

/-!
# Choices with names

Several types of this library are closed lists of choices, each with a fixed name that messages
and descriptions use.

* `Named`, `Named.ofName?` — a type whose values have names, and the value with a given name
* `Stage` — the two programs of a material
* `ValueType` — the types that the values of a material have, with `ValueType.keyword`, the word of
  the shader language for a type
* `Facet` — which part of a node's value a connection reads
* `Storage` — where a node's value lives in the generated program
-/

/-- A finite type whose values have names. -/
class Named (α : Type) where
  /-- All values, in their usual order. -/
  all : List α
  /-- The name of a value. -/
  name : α → String

/-- The value with the given name, if there is one. -/
def Named.ofName? {α : Type} [Named α] (name : String) : Option α :=
  (Named.all : List α).find? fun a => Named.name a == name

/-! ### Stages -/

/-- One of the two programs that a material compiles to. -/
inductive Stage where
  | vertex
  | fragment
deriving DecidableEq, Repr

instance : Named Stage where
  all := [.vertex, .fragment]
  name
    | .vertex => "Vertex"
    | .fragment => "Fragment"

/-! ### Value types -/

/-- The type of a value in a shader program. -/
inductive ValueType where
  | float
  | vec2
  | vec3
  | vec4
  | integer
  | mat4
  | texture
deriving DecidableEq, Repr

namespace ValueType

instance : Named ValueType where
  all := [.float, .vec2, .vec3, .vec4, .integer, .mat4, .texture]
  name
    | .float => "Float"
    | .vec2 => "Vec2"
    | .vec3 => "Vec3"
    | .vec4 => "Vec4"
    | .integer => "Integer"
    | .mat4 => "Mat4"
    | .texture => "Texture2D"

theorem ofName?_name (t : ValueType) : Named.ofName? (Named.name t) = some t := by
  cases t <;> rfl

/-- The keyword of a type in declarations and constructors. -/
def keyword : ValueType → String
  | .float => "float"
  | .vec2 => "vec2"
  | .vec3 => "vec3"
  | .vec4 => "vec4"
  | .integer => "int"
  | .mat4 => "mat4"
  | .texture => "sampler2D"

/-- How many float components a value has; only floats and vectors have any. -/
def components? : ValueType → Option Nat
  | .float => some 1
  | .vec2 => some 2
  | .vec3 => some 3
  | .vec4 => some 4
  | .integer | .mat4 | .texture => none

/-- A float or a vector of floats, the types that functions work on. -/
def isFloatVector (t : ValueType) : Bool := t.components?.isSome

end ValueType

/-! ### Facets -/

/-- The part of a node's value that a connection reads: the whole value, or channels of a
    sampled colour. -/
inductive Facet where
  | value
  | rgb
  | r
  | g
  | b
  | a
deriving DecidableEq, Repr

instance : Named Facet where
  all := [.value, .rgb, .r, .g, .b, .a]
  name
    | .value => "Value"
    | .rgb => "Rgb"
    | .r => "R"
    | .g => "G"
    | .b => "B"
    | .a => "A"

theorem Facet.ofName?_name (f : Facet) : Named.ofName? (Named.name f) = some f := by
  cases f <;> rfl

/-- The channels that a facet selects from a sampled colour; the whole value selects none. -/
def Facet.swizzle? : Facet → Option String
  | .value => none
  | .rgb => some "rgb"
  | .r => some "r"
  | .g => some "g"
  | .b => some "b"
  | .a => some "a"

/-! ### Storage -/

/-- Where a node's value lives: computed inside `main`, or supplied by the renderer. -/
inductive Storage where
  | inMain
  | uniform
deriving DecidableEq, Repr

instance : Named Storage where
  all := [.inMain, .uniform]
  name
    | .inMain => "Local"
    | .uniform => "Uniform"

theorem Storage.ofName?_name (s : Storage) : Named.ofName? (Named.name s) = some s := by
  cases s <;> rfl

end MaterialNet
