import MaterialNet.Arena
import MaterialNet.Slot

namespace MaterialNet

/-!
# Events — the log of edits and compiles

* `Event` — what has happened, with `Event.level` and `Event.message`
-/

/-- How much an event matters. -/
inductive Level where
  | trace
  | debug
  | warn
deriving DecidableEq, Repr

/-- The word for a level. -/
def Level.word : Level → String
  | .trace => "TRACE"
  | .debug => "DEBUG"
  | .warn => "WARN"

/-- Something that has happened to a network or during a compile. -/
inductive Event where
  | added (handle : Handle)
  | removed (node : String) (scrubbed : Nat)
  | connected (producer : String) (facet : Facet) (consumer : String) (input : Nat)
  | replaced (input : Nat) (consumer producer : String)
  | built (nodes connections : Nat)
  | missingOperand (node : String) (input : Nat) (type : ValueType)
  | unconnectedSlot (slot : Slot)
  | stageWritten (stage : Stage) (declarations lines : Nat)
  | compiled (nodes uniforms : Nat)
deriving DecidableEq, Repr

namespace Event

/-- The level of an event. -/
def level : Event → Level
  | .added _ | .removed _ _ | .replaced _ _ _ | .built _ _ | .compiled _ _ => .debug
  | .connected _ _ _ _ | .unconnectedSlot _ | .stageWritten _ _ _ => .trace
  | .missingOperand _ _ _ => .warn

/-- The wording of an event. -/
def message : Event → String
  | .added handle => "Added shader graph node " ++ handle.text
  | .removed node scrubbed =>
    "Removed shader graph node '" ++ node ++ "' (" ++ toString scrubbed ++ " connections scrubbed)"
  | .connected producer facet consumer input =>
    "Connected '" ++ producer ++ "' " ++ Named.name facet ++ " -> '" ++ consumer ++ "' input "
      ++ toString input
  | .replaced input consumer producer =>
    "Rewired input " ++ toString input ++ " of '" ++ consumer ++ "' to '" ++ producer ++ "'"
  | .built nodes connections =>
    "Built shader graph from description: " ++ toString nodes ++ " nodes, "
      ++ toString connections ++ " connections"
  | .missingOperand node input type =>
    "Node '" ++ node ++ "' has no input on port " ++ toString input ++ "; substituting "
      ++ type.zero.text
  | .unconnectedSlot slot => "Sink slot " ++ slot.label ++ " is unconnected"
  | .stageWritten stage declarations lines =>
    Named.name stage ++ " stage: " ++ toString declarations ++ " declarations, "
      ++ toString lines ++ " body lines"
  | .compiled nodes uniforms =>
    "Compiled shader graph: " ++ toString nodes ++ " nodes, " ++ toString uniforms ++ " uniforms"

/-- An event as a line of the log. -/
def line (e : Event) : String := e.level.word ++ " " ++ e.message

end Event

end MaterialNet
