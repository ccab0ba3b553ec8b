import MaterialNet.Arena
import MaterialNet.Choices
import MaterialNet.Template.Basic
import MaterialNet.Text.Quoted

namespace MaterialNet

/-!
# Faults — why an edit or a compile is refused

* `NodeFlaw` — what is wrong with a node on its own
* `Fault` — every cause of a refusal, with `Fault.message` for its wording
-/

/-- What is wrong with a node on its own. -/
inductive NodeFlaw where
  | infiniteConstant
  | samplerInMain
  | uniformPanner
  | infiniteSpeed
  | uniformFunction
  | functionType
  | secondSink
deriving DecidableEq, Repr

/-- The wording of a flaw. -/
def NodeFlaw.reason : NodeFlaw → String
  | .infiniteConstant => "constant value is not finite"
  | .samplerInMain => "texture samplers must be uniforms"
  | .uniformPanner => "panners are computed locally"
  | .infiniteSpeed => "panner speed is not finite"
  | .uniformFunction => "function nodes are computed locally"
  | .functionType => "function nodes operate on float or vecN values"
  | .secondSink => "the sink is created by the graph"

/-- Why an edit or a compile is refused. -/
inductive Fault where
  /-- Two nodes have one name, or two names of a program collide. -/
  | duplicateName (name : String)
  /-- The name is taken by the shader language or by the stage programs. -/
  | takenName (name : String)
  /-- The name is not well formed. -/
  | malformedName (name : String)
  /-- The handle names no node. -/
  | staleHandle (handle : Handle)
  /-- No node has this name. -/
  | unknownName (name : String)
  /-- The sink cannot be removed. -/
  | sinkRemoval
  /-- The producer has no such facet. -/
  | noFacet (node : String) (facet : Facet)
  /-- The consumer has no such input. -/
  | noInput (node : String) (input count : Nat)
  /-- The node is flawed in itself. -/
  | flawedNode (node : String) (flaw : NodeFlaw)
  /-- No rule reads a value of one type as the other. -/
  | noPromotion (consumer : String) (produced required : ValueType)
  /-- The node's value depends on itself. -/
  | cyclic (node : String)
  /-- There is no texture unit left for the sampler. -/
  | noTextureUnit (node : String)
  /-- The stage's template cannot be filled in. -/
  | template (fault : Template.Fault)
  /-- A description cannot be read. -/
  | unreadable
deriving DecidableEq, Repr

/-- The wording of a fault. -/
def Fault.message : Fault → String
  | .duplicateName name => "Duplicate identifier: " ++ name
  | .takenName name => "Identifier is reserved by the shader templates: " ++ name
  | .malformedName name => "Invalid shader identifier: " ++ quoted name
  | .staleHandle handle => "Node not found: " ++ handle.text
  | .unknownName name => "Node not found: " ++ name
  | .sinkRemoval => "The material sink node cannot be removed"
  | .noFacet node facet => "Node '" ++ node ++ "' has no output port " ++ Named.name facet
  | .noInput node input count =>
    "Node '" ++ node ++ "' has no input port " ++ toString input ++ " (max " ++ toString count ++ ")"
  | .flawedNode node flaw => "Invalid node '" ++ node ++ "': " ++ flaw.reason
  | .noPromotion consumer produced required =>
    "Cannot coerce " ++ Named.name produced ++ " to " ++ Named.name required ++ " (input of '"
      ++ consumer ++ "')"
  | .cyclic node => "Cycle detected in shader graph at node '" ++ node ++ "'"
  | .noTextureUnit node => "No texture unit left for sampler '" ++ node ++ "'"
  | .template _ => "Shader template error"
  | .unreadable => "JSON error"

end MaterialNet
