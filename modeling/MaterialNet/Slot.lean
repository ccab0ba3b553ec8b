import MaterialNet.Shader.Expr

namespace MaterialNet

/-!
# Material slots

The sink of a material has one input slot for each variable that the stage programs let a
material set.  Each stage visits its slots in a fixed order, its *plan*.

* `Slot` — the slots, with their numbers, types, variables and stages
* `Step`, `plan` — what a stage's sink writes, in order
-/

/-- An input slot of the sink. -/
inductive Slot where
  | albedo
  | normal
  | metallic
  | roughness
  | ambientOcclusion
  | emissive
  | vertexOffset
deriving DecidableEq, Repr

namespace Slot

instance : Named Slot where
  all := [.albedo, .normal, .metallic, .roughness, .ambientOcclusion, .emissive, .vertexOffset]
  name
    | .albedo => "Albedo"
    | .normal => "Normal"
    | .metallic => "Metallic"
    | .roughness => "Roughness"
    | .ambientOcclusion => "AmbientOcclusion"
    | .emissive => "Emissive"
    | .vertexOffset => "VertexOffset"

/-- All slots in the order of their numbers. -/
def all : List Slot := Named.all

/-- The number of slots. -/
def count : Nat := 7

/-- The number of a slot among the sink's inputs. -/
def index : Slot → Nat
  | .albedo => 0
  | .normal => 1
  | .metallic => 2
  | .roughness => 3
  | .ambientOcclusion => 4
  | .emissive => 5
  | .vertexOffset => 6

/-- The slot with a given number. -/
def ofIndex? (i : Nat) : Option Slot := all[i]?

theorem ofIndex?_index (s : Slot) : ofIndex? s.index = some s := by
  cases s <;> rfl

/-- The type that a slot reads its input as. -/
def type : Slot → ValueType
  | .metallic | .roughness | .ambientOcclusion => .float
  | .albedo | .normal | .emissive | .vertexOffset => .vec4

/-- The program variable that a slot sets. -/
def target : Slot → String
  | .albedo => "AlbedoOut"
  | .normal => "NormalOut"
  | .metallic => "Metallic"
  | .roughness => "Roughness"
  | .ambientOcclusion => "AmbientOcclusion"
  | .emissive => "EmissiveOut"
  | .vertexOffset => "VertexOffset"

/-- The stage whose program has the slot's variable. -/
def stage : Slot → Stage
  | .vertexOffset => .vertex
  | _ => .fragment

/-- The name of a slot in comments and messages. -/
def label : Slot → String
  | .albedo => "Albedo"
  | .normal => "Normal"
  | .metallic => "Metallic"
  | .roughness => "Roughness"
  | .ambientOcclusion => "AO"
  | .emissive => "Emissive"
  | .vertexOffset => "Vertex Offset"

end Slot

/-! ### Plans -/

/-- One step of writing the sink. -/
inductive Step where
  /-- Set the variable of a slot. -/
  | slot (s : Slot)
  /-- Pack the scalar channels into one output, after all of them are known. -/
  | composite
deriving DecidableEq, Repr

/-- The steps of a stage, in order. -/
def plan : Stage → List Step
  | .vertex => [.slot .vertexOffset]
  | .fragment =>
    [.slot .metallic, .slot .roughness, .slot .ambientOcclusion, .composite, .slot .albedo,
      .slot .emissive, .slot .normal]

/-- The slot that a step sets, if it sets one. -/
def Step.slot? : Step → Option Slot
  | .slot s => some s
  | .composite => none

/-- The slots of a stage, in the order of its plan. -/
def Stage.slots (stage : Stage) : List Slot := (plan stage).filterMap Step.slot?

/-- A slot is in the plan of its own stage and of no other. -/
theorem Slot.mem_slots (s : Slot) (stage : Stage) : s ∈ stage.slots ↔ s.stage = stage := by
  cases s <;> cases stage <;> decide

end MaterialNet
