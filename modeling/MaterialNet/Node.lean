import MaterialNet.Event
import MaterialNet.Line
import MaterialNet.Shader.Function
import MaterialNet.Shader.Identifier

namespace MaterialNet

/-!
# Nodes

A node computes or supplies one value of a material.  Links are kept by the node that reads them:
each one feeds one of the node's inputs with a facet of another node.

* `NodeKind`, `Link`, `Node` — what a node does, what it reads, and the node itself
* `Node.inputCount`, `Node.inputType?`, `Node.facetType`, `Node.facetExpr` — inputs and facets
* `Node.check` — whether a node is sound on its own
* `Node.declaration?`, `Node.statement` — what a node adds to a program
* `Node.setLink`, `Node.dropLink`, `Node.scrub` — changes to a node's links
-/

/-- What a node does. -/
inductive NodeKind where
  /-- A literal value, written into the program or exposed as a uniform. -/
  | constant (value : Constant)
  /-- A sample of a texture; its input is the coordinates. -/
  | texture
  /-- Coordinates that scroll with time; its input is the coordinates to start from. -/
  | panner (speedX speedY : Binary32)
  /-- A function of one operand. -/
  | unary (fn : UnaryFn) (type : ValueType)
  /-- A function of two operands. -/
  | binary (fn : BinaryFn) (type : ValueType)
  /-- The material's output. -/
  | sink
deriving DecidableEq, Repr

/-- A facet of a producer that feeds one input of the node that keeps the link. -/
structure Link where
  producer : Handle
  facet : Facet
  input : Nat
deriving DecidableEq, Repr

/-- A node of a material. Its links stand in the order in which their inputs were first fed. -/
structure Node where
  id : String
  storage : Storage
  kind : NodeKind
  links : List Link
deriving DecidableEq, Repr

namespace Node

/-! ### Inputs and value -/

/-- The node is a material's output. -/
def isSink (n : Node) : Bool := n.kind = .sink

/-- The type of a node's value; the sink has no value. -/
def type? (n : Node) : Option ValueType :=
  match n.kind with
  | .constant value => some value.type
  | .texture => some .texture
  | .panner _ _ => some .vec2
  | .unary _ type | .binary _ type => some type
  | .sink => none

/-- The number of a node's inputs. -/
def inputCount (n : Node) : Nat :=
  match n.kind with
  | .constant _ => 0
  | .texture | .panner _ _ | .unary _ _ => 1
  | .binary _ _ => 2
  | .sink => Slot.count

/-- The type that an input reads its producer as. -/
def inputType? (n : Node) (input : Nat) : Option ValueType :=
  if input < n.inputCount then
    match n.kind with
    | .constant _ => none
    | .texture | .panner _ _ => some .vec2
    | .unary _ type | .binary _ type => some type
    | .sink => (Slot.ofIndex? input).map Slot.type
  else none

/-- The link that feeds an input. -/
def link? (n : Node) (input : Nat) : Option Link := n.links.find? fun l => l.input == input

/-- The producers of a node, in the order of its inputs. -/
def producers (n : Node) : List Handle :=
  (List.range n.inputCount).filterMap fun input => (n.link? input).map Link.producer

/-! ### Facets -/

/-- The type of a facet: a texture has the facets of its sampled colour, any other node that has a
    value has the whole value only. -/
def facetType (n : Node) (facet : Facet) : Except Fault ValueType :=
  match n.kind, facet with
  | .texture, .rgb => .ok .vec3
  | .texture, .r | .texture, .g | .texture, .b | .texture, .a => .ok .float
  | .texture, .value | .sink, _ => .error (.noFacet n.id facet)
  | _, .value =>
    match n.type? with
    | some type => .ok type
    | none => .error (.noFacet n.id facet)
  | _, _ => .error (.noFacet n.id facet)

/-- The variable that holds what a node computes.  A sampled colour has a variable of its own,
    next to the sampler that bears the node's name. -/
def variableName (n : Node) : String :=
  match n.kind with
  | .texture => n.id ++ "_sample"
  | _ => n.id

/-- The expression that reads a facet. -/
def facetExpr (n : Node) (facet : Facet) : Except Fault Expr :=
  match n.kind, facet with
  | .sink, _ => .error (.noFacet n.id facet)
  | .texture, _ =>
    match facet.swizzle? with
    | some swizzle => .ok (.select (.name n.variableName) swizzle)
    | none => .error (.noFacet n.id facet)
  | _, .value => .ok (.name n.id)
  | _, _ => .error (.noFacet n.id facet)

/-! ### Soundness of a node on its own -/

/-- What is wrong with a node's kind and storage, if anything is. -/
def flaw? (n : Node) : Option NodeFlaw :=
  match n.kind with
  | .constant value => if value.isFinite then none else some .infiniteConstant
  | .texture => if n.storage = .uniform then none else some .samplerInMain
  | .panner speedX speedY =>
    if n.storage ≠ .inMain then some .uniformPanner
    else if speedX.isFinite && speedY.isFinite then none
    else some .infiniteSpeed
  | .unary _ type | .binary _ type =>
    if n.storage ≠ .inMain then some .uniformFunction
    else if type.isFloatVector then none
    else some .functionType
  | .sink => some .secondSink

/-- Refuses a node whose name is no free identifier or that is flawed. -/
def check (n : Node) : Except Fault Unit := do
  checkIdentifier n.id
  match n.flaw? with
  | some flaw => .error (.flawedNode n.id flaw)
  | none => .ok ()

/-! ### What a node adds to a program -/

/-- The declaration of a node's variable. -/
def declaration? (n : Node) : Option Declaration :=
  n.type?.map fun type => ⟨n.storage, type, n.id⟩

/-- An operand of a function node: the given expression, or the zero of the node's type, which is
    noted in the log. -/
def operand (n : Node) (type : ValueType) (input : Nat) : Option Expr → Expr × List Event
  | some e => (e, [])
  | none => (type.zero, [.missingOperand n.id input type])

/-- The coordinates that a node reads: the given expression, or the mesh's own. -/
def coordinates (e : Option Expr) : Expr := e.getD (.name defaultUv)

/-- The statement that computes a node from its input expressions, `none` standing for an input
    without a link.  Uniforms and the sink have no statement. -/
def statement (n : Node) (inputs : List (Option Expr)) : Option Line × List Event :=
  let input (i : Nat) : Option Expr := (inputs[i]?).join
  match n.kind with
  | .constant value =>
    match n.storage with
    | .inMain => (some (.assign n.id (.constant value)), [])
    | .uniform => (none, [])
  | .texture =>
    (some (.define .vec4 n.variableName (.call .texture [.name n.id, coordinates (input 0)])), [])
  | .panner speedX speedY =>
    let shift := Expr.binary .times (.constant (.vec2 speedX speedY)) (.name timeUniform)
    (some (.assign n.id (.binary .plus (coordinates (input 0)) shift)), [])
  | .unary fn type =>
    let (x, events) := n.operand type 0 (input 0)
    (some (.assign n.id (fn.apply x)), events)
  | .binary fn type =>
    let (x, events) := n.operand type 0 (input 0)
    let (y, moreEvents) := n.operand type 1 (input 1)
    (some (.assign n.id (fn.apply x y)), events ++ moreEvents)
  | .sink => (none, [])

/-! ### Changes to the links -/

/-- Puts a link in the place of the first one that feeds the same input; the links before and
    after it stay. -/
def replaceLink (l : Link) : List Link → List Link
  | [] => []
  | l' :: rest => if l'.input = l.input then l :: rest else l' :: replaceLink l rest

/-- Feeds an input, replacing the link that fed it before. -/
def setLink (n : Node) (l : Link) : Node :=
  match n.link? l.input with
  | some _ => { n with links := replaceLink l n.links }
  | none => { n with links := n.links ++ [l] }

/-- Takes away the link that feeds an input. -/
def dropLink (n : Node) (input : Nat) : Node :=
  { n with links := n.links.eraseP fun l => l.input == input }

/-- Takes away every link that reads a producer. -/
def scrub (n : Node) (producer : Handle) : Node :=
  { n with links := n.links.filter fun l => l.producer ≠ producer }

/-- The number of links that read a producer. -/
def readsOf (n : Node) (producer : Handle) : Nat :=
  n.links.countP fun l => l.producer = producer

end Node

/-! ### Usual nodes -/

/-- The storage that a kind of node usually has: samplers are uniforms, all else is computed. -/
def NodeKind.usualStorage : NodeKind → Storage
  | .texture => .uniform
  | _ => .inMain

/-- The name of the sink. -/
def sinkName : String := "MaterialOutput"

/-- The sink of a new material. -/
def Node.newSink : Node := ⟨sinkName, .inMain, .sink, []⟩

end MaterialNet
