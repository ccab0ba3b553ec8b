import MaterialNet.Slot

namespace MaterialNet

/-!
# Lines of a stage program

A material adds two kinds of line to a stage program: declarations before `main` and body lines
inside it.

* `Declaration` — the declaration of a node's variable
* `Line` — a body line: an assignment, a sampled colour, or a comment
* `compositeLine`, `normalDecode` — the lines that the sink adds on its own account
-/

/-! ### Declarations -/

/-- The declaration of a variable at global scope. -/
structure Declaration where
  storage : Storage
  type : ValueType
  name : String
deriving DecidableEq, Repr

/-- The text of a declaration. -/
def Declaration.text (d : Declaration) : String :=
  (match d.storage with
    | .uniform => "uniform "
    | .inMain => "") ++ d.type.keyword ++ " " ++ d.name ++ ";"

/-! ### Body lines -/

/-- A line inside `main`. -/
inductive Line where
  /-- Sets a declared variable. -/
  | assign (target : String) (value : Expr)
  /-- Sets some components of a declared vector. -/
  | assignPart (target swizzle : String) (value : Expr)
  /-- Declares and sets a variable of `main`. -/
  | define (type : ValueType) (target : String) (value : Expr)
  /-- Announces a slot in a comment. -/
  | label (s : Slot)
  /-- Stands where a slot without input would be set. -/
  | noInput
deriving Repr

/-- The text of a body line. -/
def Line.text : Line → String
  | .assign target value => target ++ " = " ++ value.text ++ ";"
  | .assignPart target swizzle value => target ++ "." ++ swizzle ++ " = " ++ value.text ++ ";"
  | .define type target value => type.keyword ++ " " ++ target ++ " = " ++ value.text ++ ";"
  | .label s => "// " ++ s.label
  | .noInput => "//No valid input found!"

/-- The text of several lines, each one ended. -/
def linesText (lines : List Line) : String :=
  String.join (lines.map fun line => line.text ++ "\n")

/-! ### The sink's own lines -/

/-- Packs the scalar channels into the output that holds them. -/
def compositeLine : Line :=
  .assign "MaterialOut" <| .construct .vec4
    [.name Slot.metallic.target, .name Slot.roughness.target, .name Slot.ambientOcclusion.target,
      .real Binary32.one]

/-- Follows the normal's assignment: from channels between 0 and 1 to a direction, and from
    tangent space to the space of the program. -/
def normalDecode : List Line :=
  let normal := Slot.normal.target
  let direction := Expr.select (.name normal) "rgb"
  [.assignPart normal "rgb"
      (.binary .minus (.binary .times direction (.real Binary32.two)) (.real Binary32.one)),
    .assignPart normal "rgb" (.call .normalize [.binary .times (.name "TBN") direction])]

end MaterialNet
