import MaterialNet.Action
import MaterialNet.Manifest
import MaterialNet.Network.Reachable
import MaterialNet.Shader.Function

namespace MaterialNet

/-!
# Sessions

A session assembles the programs of a network.  It keeps what has been assembled of the current
stage and the manifest of all stages so far; the network itself is not changed.

* `Session` — with `Session.fresh` for a new one
* `Session.ensureAcyclic` — refuses a network with a cycle, once
* `Session.enterStage` — starts a stage over
* `Network.readLink`, `Network.statementOf` — the expressions and statements of a network's nodes
-/

/-- What a session keeps.  `acyclic` is set once the network has been found without cycles.  For
    the current stage there are the nodes whose statements have been given out, the nodes whose
    declarations have been collected, the owners of the names in use and the declarations; for the
    whole session there are the manifest and the number of textures bound. -/
structure Session where
  stage : Stage
  acyclic : Bool
  evaluated : Visited
  declared : Visited
  owners : Std.TreeMap String Handle
  declarations : Array Declaration
  manifest : Manifest
  boundTextures : UInt32

namespace Session

/-- A new session, before the vertex stage. -/
def fresh : Session where
  stage := .vertex
  acyclic := false
  evaluated := .empty
  declared := .empty
  owners := .empty
  declarations := #[]
  manifest := .empty
  boundTextures := 0

/-- Starts a stage over; the manifest and the texture units stay. -/
def enterStage (s : Session) (stage : Stage) : Session :=
  { s with
    stage
    evaluated := .empty
    declared := .empty
    owners := .empty
    declarations := #[] }

/-- Refuses a network with a cycle.  A network found without one is not searched again. -/
def ensureAcyclic (net : Network) : Action Session Unit := do
  let s ← Action.getState
  if s.acyclic then pure ()
  else do
    Action.lift net.checkAcyclic
    Action.setState { s with acyclic := true }

end Session

/-! ### Reading links -/

namespace Network

/-- The expression that reads a link as the type that its consumer needs. -/
def readLink (net : Network) (consumer : String) (link : Link) (required : ValueType) :
    Except Fault Expr := do
  let producer ← net.get link.producer
  let e ← producer.facetExpr link.facet
  let produced ← producer.facetType link.facet
  match promote? produced required e with
  | some promoted => .ok promoted
  | none => .error (.noPromotion consumer produced required)

/-- The expression that an input of a node reads, if a link feeds it. -/
def inputExpr (net : Network) (node : Node) (input : Nat) : Except Fault (Option Expr) :=
  match node.link? input with
  | none => .ok none
  | some link =>
    match node.inputType? input with
    | none => .error (.noInput node.id input node.inputCount)
    | some required => some <$> net.readLink node.id link required

/-- The statement of a node of the network, with the events to note. -/
def statementOf (net : Network) (h : Handle) : Except Fault (Option Line × List Event) := do
  let node ← net.get h
  let inputs ← (List.range node.inputCount).mapM (net.inputExpr node)
  .ok (node.statement inputs)

end Network

end MaterialNet
