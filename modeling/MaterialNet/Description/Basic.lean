import MaterialNet.Action
import MaterialNet.Network.Basic

namespace MaterialNet

/-!
# Descriptions

A description is a network as plain data: nodes in order, and connections that call the nodes by
their names.

* `Description` — with `NodeEntry` and `Connection`
* `Network.describe` — the description of a network
* `Network.build` — the network of a description
-/

/-- A node of a description. -/
structure NodeEntry where
  id : String
  storage : Storage
  kind : NodeKind
deriving DecidableEq, Repr

/-- A connection of a description: a facet of the node called `source` feeds an input of the node
    called `target`. -/
structure Connection where
  source : String
  facet : Facet
  target : String
  input : UInt64
deriving DecidableEq, Repr

/-- A network without its sink, as plain data. -/
structure Description where
  settings : Settings
  nodes : List NodeEntry
  connections : List Connection
deriving DecidableEq, Repr

/-! ### Describing a network -/

/-- The entry of a node. -/
def Node.entry (node : Node) : NodeEntry := ⟨node.id, node.storage, node.kind⟩

namespace Network

/-- The connection of a link that feeds a node. -/
def connection? (net : Network) (consumer : Node) (link : Link) : Option Connection :=
  (net.node? link.producer).map fun producer =>
    ⟨producer.id, link.facet, consumer.id, UInt64.ofNat link.input⟩

/-- The connections that feed a node, in the order of its inputs. -/
def connectionsOf (net : Network) (consumer : Node) : List Connection :=
  (List.range consumer.inputCount).filterMap fun input =>
    (consumer.link? input).bind (net.connection? consumer)

/-- The description of a network: nodes in the order in which they were added, and the connections
    of each node in turn, the sink's last. -/
def describe (net : Network) : Description where
  settings := net.settings
  nodes := net.order.toList.filterMap fun h => (net.node? h).map Node.entry
  connections := net.handlesInOrder.flatMap fun h =>
    match net.node? h with
    | some node => net.connectionsOf node
    | none => []

/-! ### Building a network -/

/-- Makes an edit of the network that is being built. -/
def apply {α : Type} (edit : Network → Except Fault (Edit α)) : Action Network α := do
  let net ← Action.getState
  let e ← Action.lift (edit net)
  Action.setState e.network
  Action.note e.events
  pure e.answer

/-- Adds the nodes of a description. -/
def addEntries : List NodeEntry → Action Network Unit
  | [] => pure ()
  | e :: rest => do
    let _ ← apply fun net => net.add ⟨e.id, e.storage, e.kind, []⟩
    addEntries rest

/-- The handle of the node with the given name; a name that no node has is a fault. -/
def resolve (net : Network) (id : String) : Except Fault Handle :=
  match net.find? id with
  | some h => .ok h
  | none => .error (.unknownName id)

/-- Makes a connection of a description. -/
def connectByName (net : Network) (c : Connection) : Except Fault (Edit Unit) := do
  let producer ← net.resolve c.source
  let consumer ← net.resolve c.target
  net.connect consumer ⟨producer, c.facet, c.input.toNat⟩

/-- Makes the connections of a description. -/
def addConnections : List Connection → Action Network Unit
  | [] => pure ()
  | c :: rest => do
    apply fun net => net.connectByName c
    addConnections rest

/-- Adds all that a description lists, nodes before connections. -/
def addAll (d : Description) : Action Network Unit := do
  addEntries d.nodes
  addConnections d.connections
  Action.note [.built d.nodes.length d.connections.length]

/-- The network of a description, or the fault of the first entry that is refused. -/
def build (d : Description) : Outcome Network Unit := (addAll d).run (.new d.settings)

end Network

end MaterialNet
