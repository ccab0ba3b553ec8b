import MaterialNet.Choices
import MaterialNet.Number.Layout

namespace MaterialNet

/-!
# Constants and expressions

The expressions that a program's statements assign.  They are kept as trees and written out as
text at the very end.

* `Constant` — a literal value of a material, with `Constant.isFinite`, whether the shader language
  can spell it, and `Constant.text`, its literal
* `Builtin` — the functions of the shader language that expressions call
* `Expr` — expressions, with `Expr.text` for their text
* `ValueType.zero` — the zero that stands in for a missing input
-/

/-! ### Constants -/

/-- A literal value. A matrix has its components column by column. -/
inductive Constant where
  | float (x : Binary32)
  | vec2 (x y : Binary32)
  | vec3 (x y z : Binary32)
  | vec4 (x y z w : Binary32)
  | integer (n : Int32)
  | mat4 (columns : Vector Binary32 16)
deriving DecidableEq, Repr

namespace Constant

/-- The type of a constant. -/
def type : Constant → ValueType
  | .float _ => .float
  | .vec2 _ _ => .vec2
  | .vec3 _ _ _ => .vec3
  | .vec4 _ _ _ _ => .vec4
  | .integer _ => .integer
  | .mat4 _ => .mat4

/-- The float components of a constant, in order. -/
def components : Constant → List Binary32
  | .float x => [x]
  | .vec2 x y => [x, y]
  | .vec3 x y z => [x, y, z]
  | .vec4 x y z w => [x, y, z, w]
  | .integer _ => []
  | .mat4 columns => columns.toList

/-- Every component is finite; infinities and not-a-numbers have no literal. -/
def isFinite (c : Constant) : Bool := c.components.all Binary32.isFinite

/-- The constructor of a type applied to float literals. -/
def constructorText (t : ValueType) (xs : List Binary32) : String :=
  t.keyword ++ "(" ++ ", ".intercalate (xs.map Binary32.shaderText) ++ ")"

/-- The literal of a constant: a number, or a constructor with one literal per component. -/
def text (c : Constant) : String :=
  match c with
  | .float x => x.shaderText
  | .integer n => (Numeral.ofInt n.toInt).text
  | c => constructorText c.type c.components

end Constant

/-! ### Functions and operators of the shader language -/

/-- A function of the shader language. -/
inductive Builtin where
  | abs
  | sin
  | cos
  | fract
  | clamp
  | normalize
  | sqrt
  | floor
  | min
  | max
  | pow
  | step
  | texture
deriving DecidableEq, Repr

instance : Named Builtin where
  all := [.abs, .sin, .cos, .fract, .clamp, .normalize, .sqrt, .floor, .min, .max, .pow, .step,
    .texture]
  name
    | .abs => "abs"
    | .sin => "sin"
    | .cos => "cos"
    | .fract => "fract"
    | .clamp => "clamp"
    | .normalize => "normalize"
    | .sqrt => "sqrt"
    | .floor => "floor"
    | .min => "min"
    | .max => "max"
    | .pow => "pow"
    | .step => "step"
    | .texture => "texture"

/-- An arithmetic operator of the shader language. -/
inductive Operator where
  | plus
  | minus
  | times
  | over
deriving DecidableEq, Repr

/-- The sign of an operator. -/
def Operator.sign : Operator → String
  | .plus => "+"
  | .minus => "-"
  | .times => "*"
  | .over => "/"

/-! ### Expressions -/

/-- An expression of the shader language. -/
inductive Expr where
  /-- A variable. -/
  | name (id : String)
  /-- A literal. -/
  | constant (c : Constant)
  /-- Components of a vector. -/
  | select (e : Expr) (swizzle : String)
  /-- The negative of a value. -/
  | negate (e : Expr)
  /-- An operator between two values. -/
  | binary (op : Operator) (left right : Expr)
  /-- A call of a built-in function. -/
  | call (f : Builtin) (arguments : List Expr)
  /-- A value built from others by the constructor of a type. -/
  | construct (t : ValueType) (arguments : List Expr)
deriving Repr

namespace Expr

mutual

/-- The text of an expression.  No parentheses are written: what the library builds needs none. -/
def text : Expr → String
  | .name id => id
  | .constant c => c.text
  | .select e swizzle => e.text ++ "." ++ swizzle
  | .negate e => "-" ++ e.text
  | .binary op left right => left.text ++ " " ++ op.sign ++ " " ++ right.text
  | .call f arguments => Named.name f ++ "(" ++ textList arguments ++ ")"
  | .construct t arguments => t.keyword ++ "(" ++ textList arguments ++ ")"

/-- The texts of several expressions, with commas between them. -/
def textList : List Expr → String
  | [] => ""
  | [e] => e.text
  | e :: e' :: rest => e.text ++ ", " ++ textList (e' :: rest)

end

/-- A float literal. -/
def real (x : Binary32) : Expr := .constant (.float x)

end Expr

/-! ### Zeros -/

/-- The zero of a type, which stands in for a missing input.  A sampler has no zero; the empty
    name is put in its place. -/
def ValueType.zero : ValueType → Expr
  | .float => .real Binary32.zero
  | .integer => .constant (.integer 0)
  | .texture => .name ""
  | t => .construct t [.real Binary32.zero]

end MaterialNet
