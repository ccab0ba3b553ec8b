import MaterialNet.Network.Basic
import MaterialNet.Proofs.Execution
import MaterialNet.Shader.Function

namespace MaterialNet

/-!
# What a network means

The value of a node is defined by recursion over its producers, without any program: a literal, a
uniform, a sample of a texture, or a function of what the inputs read.  The uniforms, the
coordinates of the mesh, the time and the tangent space are taken from a store.

* `Interpretation.constant`, `convert?`, `facet`, `unary`, `binary` — the values that nodes are made
  of
* `Network.inputValue`, `Network.nodeValue` — the value of a node, given those of its producers
* `Network.Denotes`, `Network.SlotDenotes` — the values of nodes and slots
* `Network.Denotes.unique`, `Network.SlotDenotes.unique` — there is at most one
-/

universe u

variable {V : Type u}

namespace Interpretation

variable (I : Interpretation V)

/-! ### Literals -/

/-- The value of a numeral, which its sign negates. -/
def numeral (n : Numeral) : V :=
  let magnitude := I.number ({ n with negative := false } : Numeral).text
  if n.negative then I.negate magnitude else magnitude

/-- The value of a float. -/
def real (x : Binary32) : V := I.numeral (Layout.shader.numeral x)

/-- The value of a literal. -/
def constant (c : Constant) : V :=
  match c with
  | .float x => I.real x
  | .integer n => I.numeral (Numeral.ofInt n.toInt)
  | c => I.call c.type.keyword (c.components.map I.real)

/-- The zero that stands in for a missing operand. -/
def zero (t : ValueType) : V :=
  match t with
  | .float => I.real .zero
  | t => I.call t.keyword [I.real .zero]

/-! ### Reading values -/

/-- A value of one type read as another: four components are made of one by repeating it and of two
    or three by adding ones, a single component is the first one, and all else keeps its type. -/
def convert? (produced required : ValueType) (v : V) : Option V :=
  match required, produced with
  | .vec4, .float => some (I.call "vec4" [v, v, v, I.real .one])
  | .vec4, .vec2 => some (I.call "vec4" [v, I.real .one, I.real .one])
  | .vec4, .vec3 => some (I.call "vec4" [v, I.real .one])
  | .float, .vec2 | .float, .vec3 | .float, .vec4 => some (I.select "r" v)
  | .float, .float | .vec2, .vec2 | .vec3, .vec3 | .vec4, .vec4 => some v
  | _, _ => none

/-- The part of a value that a facet reads. -/
def facet (f : Facet) (v : V) : V :=
  match f.swizzle? with
  | some channels => I.select channels v
  | none => v

/-! ### Functions -/

/-- The value of a function of one operand. -/
def unary (f : UnaryFn) (v : V) : V :=
  match f with
  | .negate => I.negate v
  | .oneMinus => I.operate .minus (I.real .one) v
  | .abs => I.call "abs" [v]
  | .sin => I.call "sin" [v]
  | .cos => I.call "cos" [v]
  | .fract => I.call "fract" [v]
  | .saturate => I.call "clamp" [v, I.real .zero, I.real .one]
  | .normalize => I.call "normalize" [v]
  | .sqrt => I.call "sqrt" [v]
  | .floor => I.call "floor" [v]

/-- The value of a function of two operands. -/
def binary (f : BinaryFn) (v w : V) : V :=
  match f with
  | .add => I.operate .plus v w
  | .subtract => I.operate .minus v w
  | .multiply => I.operate .times v w
  | .divide => I.operate .over v w
  | .min => I.call "min" [v, w]
  | .max => I.call "max" [v, w]
  | .pow => I.call "pow" [v, w]
  | .step => I.call "step" [v, w]

/-- A normal from channels between 0 and 1 to a direction, and from tangent space to the space of
    the program; the fourth component is kept. -/
def decodeNormal (tangentSpace v : V) : V :=
  let scaled := I.operate .times (I.select "rgb" v) (I.real .two)
  let direction := I.update "rgb" v (I.operate .minus scaled (I.real .one))
  let turned := I.operate .times tangentSpace (I.select "rgb" direction)
  I.update "rgb" direction (I.call "normalize" [turned])

end Interpretation

namespace Network

variable (net : Network) (I : Interpretation V) (supplied : Store V)

/-! ### Nodes -/

/-- What an input reads, given the values of the producers: nothing if no link feeds it. -/
def inputValue (values : Handle → V) (n : Node) (input : Nat) : Option (Option V) :=
  match n.link? input with
  | none => some none
  | some link =>
    match net.node? link.producer, n.inputType? input with
    | some producer, some required =>
      match producer.facetType link.facet with
      | .ok produced =>
        (I.convert? produced required (I.facet link.facet (values link.producer))).map some
      | .error _ => none
    | _, _ => none

/-- The value of a node, given what its inputs read.  The value of a texture is the colour that is
    sampled. -/
def nodeValue (n : Node) (input : Nat → Option (Option V)) : Option V :=
  match n.kind with
  | .constant value =>
    match n.storage with
    | .inMain => some (I.constant value)
    | .uniform => some (supplied n.id)
  | .texture =>
    (input 0).map fun uv => I.call "texture" [supplied n.id, uv.getD (supplied "TexCoords")]
  | .panner speedX speedY =>
    (input 0).map fun uv =>
      I.operate .plus (uv.getD (supplied "TexCoords"))
        (I.operate .times (I.constant (.vec2 speedX speedY)) (supplied "u_Time"))
  | .unary fn type => (input 0).map fun v => I.unary fn (v.getD (I.zero type))
  | .binary fn type =>
    (input 0).bind fun v => (input 1).map fun w =>
      I.binary fn (v.getD (I.zero type)) (w.getD (I.zero type))
  | .sink => none

/-- The value of the node that a handle names. -/
inductive Denotes : Handle → V → Prop where
  | node {h : Handle} {n : Node} {values : Handle → V} {v : V} (hn : net.node? h = some n)
      (hvalues : ∀ input link, n.link? input = some link →
        Denotes link.producer (values link.producer))
      (hv : nodeValue I supplied n (net.inputValue I values n) = some v) : Denotes h v

/-- The value of a slot: that of the facet which feeds it, read as the slot's type and, for the
    normal, decoded. -/
def SlotDenotes (slot : Slot) (v : V) : Prop :=
  ∃ sink link producer produced u w, net.node? net.sink = some sink
    ∧ sink.link? slot.index = some link ∧ net.node? link.producer = some producer
    ∧ producer.facetType link.facet = .ok produced ∧ net.Denotes I supplied link.producer u
    ∧ I.convert? produced slot.type (I.facet link.facet u) = some w
    ∧ v = if slot = .normal then I.decodeNormal (supplied "TBN") w else w

/-! ### There is one value -/

variable {net I supplied}

/-- The inputs of a node read the producers of its links, and no others. -/
theorem inputValue_congr {values values' : Handle → V} {n : Node}
    (h : ∀ input link, n.link? input = some link →
      values link.producer = values' link.producer) :
    net.inputValue I values n = net.inputValue I values' n := by
  funext input
  unfold inputValue
  cases hl : n.link? input with
  | none => rfl
  | some link =>
    dsimp only
    rw [h input link hl]

/-- A node has at most one value, whatever values its inputs are thought to have. -/
theorem Denotes.unique {h : Handle} {v v' : V} (hv : net.Denotes I supplied h v)
    (hv' : net.Denotes I supplied h v') : v = v' := by
  -- By induction on the derivation: the producers have one value each, so the inputs read the same.
  induction hv generalizing v' with
  | node hn _ hv ih =>
    cases hv' with
    | node hn' hvalues' hv' =>
      obtain rfl := Option.some.inj (hn.symm.trans hn')
      rw [inputValue_congr fun input link hl => ih input link hl (hvalues' input link hl)] at hv
      exact Option.some.inj (hv.symm.trans hv')

/-- A slot has at most one value. -/
theorem SlotDenotes.unique {slot : Slot} {v v' : V} (h : net.SlotDenotes I supplied slot v)
    (h' : net.SlotDenotes I supplied slot v') : v = v' := by
  obtain ⟨sink, link, producer, produced, u, w, hs, hl, hp, ht, hu, hw, rfl⟩ := h
  obtain ⟨sink', link', producer', produced', u', w', hs', hl', hp', ht', hu', hw', rfl⟩ := h'
  obtain rfl := Option.some.inj (hs.symm.trans hs')
  obtain rfl := Option.some.inj (hl.symm.trans hl')
  obtain rfl := Option.some.inj (hp.symm.trans hp')
  obtain rfl := Except.ok.inj (ht.symm.trans ht')
  obtain rfl := hu.unique hu'
  rw [Option.some.inj (hw.symm.trans hw')]

end Network

end MaterialNet
