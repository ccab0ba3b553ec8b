import MaterialNet.Session.Basic

namespace MaterialNet

/-!
# Writing statements

* `Session.evaluate` — the lines that compute a node, or that write the sink for the current stage
-/

namespace Session

/-- The statements of several nodes in order. -/
def statements (net : Network) : List Handle → Action Session (List Line)
  | [] => pure []
  | h :: rest => do
    let (line?, events) ← Action.lift (net.statementOf h)
    Action.note events
    let lines ← statements net rest
    pure (line?.toList ++ lines)

/-- The statements that compute a node and everything that it depends on, producers first; what
    has been computed in this stage is left out.  All of the nodes count as computed from the
    start, also if a statement then fails. -/
def visit (net : Network) (h : Handle) : Action Session (List Line) := do
  let s ← Action.getState
  let (found, evaluated) ← Action.lift (net.postOrder h s.evaluated)
  Action.setState { s with evaluated }
  statements net found.toList

/-! ### The sink -/

/-- How messages call a slot of the sink. -/
def slotConsumer (slot : Slot) : String := sinkName ++ "." ++ slot.label

/-- The lines that set a slot's variable: a comment if nothing feeds the slot, and otherwise the
    statements of its producer, the assignment, and the decoding of a normal. -/
def slotLines (net : Network) (sink : Node) (slot : Slot) : Action Session (List Line) :=
  match sink.link? slot.index with
  | none => do
    Action.note [.unconnectedSlot slot]
    pure [.noInput]
  | some link => do
    let body ← visit net link.producer
    let value ← Action.lift (net.readLink (slotConsumer slot) link slot.type)
    pure (body ++ .assign slot.target value :: if slot = .normal then normalDecode else [])

/-- The lines of one step of a plan. -/
def stepLines (net : Network) (sink : Node) : Step → Action Session (List Line)
  | .composite => pure [compositeLine]
  | .slot slot => do
    let lines ← slotLines net sink slot
    pure (if net.settings.annotateSlots then .label slot :: lines else lines)

/-- The lines of several steps in order. -/
def planLines (net : Network) (sink : Node) : List Step → Action Session (List Line)
  | [] => pure []
  | step :: rest => do
    let lines ← stepLines net sink step
    let others ← planLines net sink rest
    pure (lines ++ others)

/-! ### Nodes and the sink alike -/

/-- The lines that compute a node in the current stage, without what has been computed before; for
    the sink, the lines of the stage's plan. -/
def evaluate (net : Network) (h : Handle) : Action Session (List Line) := do
  ensureAcyclic net
  let node ← Action.lift (net.get h)
  if node.isSink then do
    let s ← Action.getState
    if s.evaluated.contains h then pure []
    else do
      Action.setState { s with evaluated := s.evaluated.insert h }
      planLines net node (plan s.stage)
  else visit net h

end Session

end MaterialNet
