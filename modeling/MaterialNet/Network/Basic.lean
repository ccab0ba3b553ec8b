import Std.Data.TreeMap
import MaterialNet.Node

namespace MaterialNet

/-!
# Networks

A network holds the nodes of a material and its sink.  Every edit is refused with a fault, or
answers with the changed network; a refused edit changes nothing.

* `Settings` — choices that shape the text of the programs
* `Network` — with `Network.new`, `find?`, `node?`, `get`
* `Network.add`, `remove`, `connect`, `connectSlot`, `disconnect` — the edits
* `Edit` — the outcome of an edit
-/

/-- Choices that shape the text of the programs: the version of the shader language, the texture
    unit of the first sampler, and whether each slot is announced in a comment. -/
structure Settings where
  version : UInt32 := 330
  textureUnitBase : UInt32 := 0
  annotateSlots : Bool := false
deriving DecidableEq, Repr

/-- A material: nodes in an arena, an index of their names, the order in which they were added
    (without the sink), the sink, and the settings for compiling. -/
structure Network where
  arena : Arena Node
  index : Std.TreeMap String Handle
  order : Array Handle
  sink : Handle
  settings : Settings

/-- What an edit gives: the changed network, an answer, and the events to note in the log. -/
structure Edit (α : Type) where
  network : Network
  answer : α
  events : List Event

namespace Network

/-- The network that holds only a sink. -/
def new (settings : Settings) : Network :=
  let (arena, sink) := Arena.empty.insert Node.newSink
  { arena, index := Std.TreeMap.empty.insert sinkName sink, order := #[], sink, settings }

/-! ### Looking up -/

/-- The node that a handle names. -/
def node? (net : Network) (h : Handle) : Option Node := net.arena.get? h

/-- The node that a handle names; a handle that names none is a fault. -/
def get (net : Network) (h : Handle) : Except Fault Node :=
  match net.node? h with
  | some node => .ok node
  | none => .error (.staleHandle h)

/-- The handle of the node with the given name. -/
def find? (net : Network) (id : String) : Option Handle := net.index[id]?

/-- The number of nodes, without the sink. -/
def size (net : Network) : Nat := net.order.size

/-- All handles in the order of their nodes, the sink last. -/
def handlesInOrder (net : Network) : List Handle := net.order.toList ++ [net.sink]

/-! ### Adding and removing nodes -/

/-- Adds a node without its links.  The node must be sound on its own and its name new. -/
def add (net : Network) (node : Node) : Except Fault (Edit Handle) := do
  node.check
  if net.index.contains node.id then .error (.duplicateName node.id)
  else
    let (arena, handle) := net.arena.insert { node with links := [] }
    .ok {
      network := { net with
        arena
        index := net.index.insert node.id handle
        order := net.order.push handle }
      answer := handle
      events := [.added handle] }

/-- Removes a node together with every link that reads it.  The answer is the node with the links
    that it had. -/
def remove (net : Network) (h : Handle) : Except Fault (Edit Node) :=
  if h = net.sink then .error .sinkRemoval
  else
    match net.arena.remove? h with
    | none => .error (.staleHandle h)
    | some (arena, node) =>
      let scrubbed := arena.values.foldl (fun total n => total + n.readsOf h) 0
      .ok {
        network := { net with
          arena := arena.mapValues fun n => n.scrub h
          index := net.index.erase node.id
          order := net.order.filter fun h' => h' ≠ h }
        answer := node
        events := [.removed node.id scrubbed] }

/-! ### Connecting -/

/-- Feeds an input of a consumer.  The producer must have the facet and the consumer the input; a
    link that fed the input before is replaced.  A link may close a cycle. -/
def connect (net : Network) (consumer : Handle) (link : Link) : Except Fault (Edit Unit) := do
  let producer ← net.get link.producer
  let _ ← producer.facetType link.facet
  let node ← net.get consumer
  if node.inputCount ≤ link.input then .error (.noInput node.id link.input node.inputCount)
  else
    .ok {
      network := { net with arena := net.arena.modify consumer fun n => n.setLink link }
      answer := ()
      events :=
        if (node.link? link.input).isSome then [.replaced link.input node.id producer.id]
        else [.connected producer.id link.facet node.id link.input] }

/-- Feeds a slot of the sink. -/
def connectSlot (net : Network) (slot : Slot) (producer : Handle) (facet : Facet) :
    Except Fault (Edit Unit) :=
  net.connect net.sink ⟨producer, facet, slot.index⟩

/-- Takes away the link that feeds an input and answers with it, if there was one. -/
def disconnect (net : Network) (consumer : Handle) (input : Nat) :
    Except Fault (Edit (Option Link)) := do
  let node ← net.get consumer
  .ok {
    network := { net with arena := net.arena.modify consumer fun n => n.dropLink input }
    answer := node.link? input
    events := [] }

/-- The network with other settings. -/
def withSettings (net : Network) (settings : Settings) : Network := { net with settings }

end Network

end MaterialNet
