import MaterialNet.Shader.Expr

namespace MaterialNet

/-!
# Manifests

A manifest lists the values that a renderer has to supply to a material's programs, in the order
in which the programs first need them.

* `Uniform` — one supplied value
* `Manifest` — with `get?`, `contains`, `register`, `textures`
-/

/-- A value that the renderer supplies: samplers are bound to a texture unit, other values have a
    default. -/
structure Uniform where
  name : String
  type : ValueType
  binding : Option UInt32
  default : Option Constant
deriving DecidableEq, Repr

/-- Uniforms in the order in which they are first needed. -/
structure Manifest where
  entries : Array Uniform
deriving DecidableEq, Repr

namespace Manifest

/-- The manifest without entries. -/
def empty : Manifest := ⟨#[]⟩

/-- The entry with the given name. -/
def get? (m : Manifest) (name : String) : Option Uniform := m.entries.find? fun u => u.name == name

/-- Whether there is an entry with the given name. -/
def contains (m : Manifest) (name : String) : Bool := (m.get? name).isSome

/-- Adds an entry at the end, unless its name is listed already. -/
def register (m : Manifest) (u : Uniform) : Manifest :=
  if m.contains u.name then m else ⟨m.entries.push u⟩

/-- The sampler entries, in order. -/
def textures (m : Manifest) : List Uniform :=
  m.entries.toList.filter fun u => u.type = .texture

/-- The number of entries. -/
def size (m : Manifest) : Nat := m.entries.size

end Manifest

end MaterialNet
