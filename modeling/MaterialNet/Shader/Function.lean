import MaterialNet.Shader.Expr

namespace MaterialNet

/-!
# Functions and promotions

* `UnaryFn`, `BinaryFn` — the functions of one and two operands that a node may compute
* `UnaryFn.apply`, `BinaryFn.apply` — the expression that computes them
* `promote?` — the expression that reads a value of one type as another, where there is a rule
-/

/-- A function of one operand. -/
inductive UnaryFn where
  | negate
  | oneMinus
  | abs
  | sin
  | cos
  | fract
  | saturate
  | normalize
  | sqrt
  | floor
deriving DecidableEq, Repr

/-- A function of two operands, both of the node's type. -/
inductive BinaryFn where
  | add
  | subtract
  | multiply
  | divide
  | min
  | max
  | pow
  | step
deriving DecidableEq, Repr

/-! ### Names -/

instance : Named UnaryFn where
  all := [.negate, .oneMinus, .abs, .sin, .cos, .fract, .saturate, .normalize, .sqrt, .floor]
  name
    | .negate => "Negate"
    | .oneMinus => "OneMinus"
    | .abs => "Abs"
    | .sin => "Sin"
    | .cos => "Cos"
    | .fract => "Fract"
    | .saturate => "Saturate"
    | .normalize => "Normalize"
    | .sqrt => "Sqrt"
    | .floor => "Floor"

theorem UnaryFn.ofName?_name (f : UnaryFn) : Named.ofName? (Named.name f) = some f := by
  cases f <;> rfl

instance : Named BinaryFn where
  all := [.add, .subtract, .multiply, .divide, .min, .max, .pow, .step]
  name
    | .add => "Add"
    | .subtract => "Subtract"
    | .multiply => "Multiply"
    | .divide => "Divide"
    | .min => "Min"
    | .max => "Max"
    | .pow => "Pow"
    | .step => "Step"

theorem BinaryFn.ofName?_name (f : BinaryFn) : Named.ofName? (Named.name f) = some f := by
  cases f <;> rfl

/-! ### Expressions -/

/-- The function applied to an operand. -/
def UnaryFn.apply (f : UnaryFn) (x : Expr) : Expr :=
  match f with
  | .negate => .negate x
  | .oneMinus => .binary .minus (.real Binary32.one) x
  | .abs => .call .abs [x]
  | .sin => .call .sin [x]
  | .cos => .call .cos [x]
  | .fract => .call .fract [x]
  | .saturate => .call .clamp [x, .real Binary32.zero, .real Binary32.one]
  | .normalize => .call .normalize [x]
  | .sqrt => .call .sqrt [x]
  | .floor => .call .floor [x]

/-- The function applied to its operands. -/
def BinaryFn.apply (f : BinaryFn) (x y : Expr) : Expr :=
  match f with
  | .add => .binary .plus x y
  | .subtract => .binary .minus x y
  | .multiply => .binary .times x y
  | .divide => .binary .over x y
  | .min => .call .min [x, y]
  | .max => .call .max [x, y]
  | .pow => .call .pow [x, y]
  | .step => .call .step [x, y]

/-! ### Promotions -/

/-- Reads `e`, a value of type `produced`, as a value of type `required`.  A four-component slot
    broadcasts a float and pads a vector with ones, a float slot reads the first channel, floats
    and vectors of one type pass unchanged, and no other pair has a rule. -/
def promote? (produced required : ValueType) (e : Expr) : Option Expr :=
  match required, produced with
  | .vec4, .float => some (.construct .vec4 [e, e, e, .real Binary32.one])
  | .vec4, .vec2 => some (.construct .vec4 [e, .real Binary32.one, .real Binary32.one])
  | .vec4, .vec3 => some (.construct .vec4 [e, .real Binary32.one])
  | .vec4, .vec4 | .float, .float | .vec2, .vec2 | .vec3, .vec3 => some e
  | .float, .vec2 | .float, .vec3 | .float, .vec4 => some (.select e "r")
  | _, _ => none

/-- There is a rule for two types, whatever the expression. -/
def promotable (produced required : ValueType) : Bool :=
  match required with
  | .vec4 | .float => produced.isFloatVector
  | .vec2 | .vec3 => produced = required
  | .integer | .mat4 | .texture => false

/-- An expression is promoted exactly if its type is promotable. -/
theorem isSome_promote? (produced required : ValueType) (e : Expr) :
    (promote? produced required e).isSome = promotable produced required := by
  cases produced <;> cases required <;> rfl

end MaterialNet
