import MaterialNet.Session.Basic

namespace MaterialNet

/-!
# Collecting declarations

* `Session.declareNode` — takes the names of one node and collects its declaration
* `Session.declare` — declares a node and everything that it depends on
* `Session.declareSlots` — declares what feeds the slots of the sink
-/

namespace Session

/-- Takes a name for a node; a name that another node has taken is refused. -/
def takeName (name : String) (owner : Handle) : Action Session Unit := do
  let s ← Action.getState
  match s.owners[name]? with
  | some other => if other = owner then pure () else Action.lift (.error (.duplicateName name))
  | none => Action.setState { s with owners := s.owners.insert name owner }

/-- The texture unit for the next sampler, if there is one left. -/
def nextUnit? (net : Network) (s : Session) : Option UInt32 :=
  let unit := net.settings.textureUnitBase.toNat + s.boundTextures.toNat
  if unit < UInt32.size then some (UInt32.ofNat unit) else none

/-- Lists a uniform node in the manifest, unless its name is listed already. -/
def listUniform (net : Network) (node : Node) : Action Session Unit := do
  let s ← Action.getState
  if s.manifest.contains node.id then pure ()
  else
    match node.kind, node.type? with
    | _, none => pure ()
    | .texture, some type =>
      match nextUnit? net s with
      | none => Action.lift (.error (.noTextureUnit node.id))
      | some unit =>
        Action.setState { s with
          manifest := s.manifest.register ⟨node.id, type, some unit, none⟩
          boundTextures := s.boundTextures + 1 }
    | .constant value, some type =>
      Action.setState { s with
        manifest := s.manifest.register ⟨node.id, type, none, some value⟩ }
    | _, some type =>
      Action.setState { s with manifest := s.manifest.register ⟨node.id, type, none, none⟩ }

/-- Takes the names of a node: its own, and that of the variable that holds what it computes. -/
def takeNames (node : Node) (owner : Handle) : Action Session Unit := do
  takeName node.id owner
  if node.variableName = node.id then pure () else takeName node.variableName owner

/-- Collects the declaration of a node. -/
def collect (node : Node) : Action Session Unit :=
  match node.declaration? with
  | some d => Action.modifyState fun s => { s with declarations := s.declarations.push d }
  | none => pure ()

/-- Declares one node: takes its names, collects its declaration, and lists it in the manifest if
    it is a uniform. -/
def declareNode (net : Network) (h : Handle) : Action Session Unit := do
  let node ← Action.lift (net.get h)
  takeNames node h
  collect node
  if node.storage = .uniform then listUniform net node else pure ()

/-- Declares several nodes in order. -/
def declareNodes (net : Network) : List Handle → Action Session Unit
  | [] => pure ()
  | h :: rest => do
    declareNode net h
    declareNodes net rest

/-- Declares a node and everything that it depends on, producers first; what has been declared in
    this stage is left out. -/
def declare (net : Network) (h : Handle) : Action Session Unit := do
  let s ← Action.getState
  let (found, declared) ← Action.lift (net.postOrder h s.declared)
  Action.setState { s with declared }
  declareNodes net found.toList

/-- Declares what feeds a slot of the sink. -/
def declareSlot (net : Network) (sink : Node) (slot : Slot) : Action Session Unit :=
  match sink.link? slot.index with
  | some link => declare net link.producer
  | none => pure ()

/-- Declares what feeds the given slots of the sink. -/
def declareSlots (net : Network) (sink : Node) : List Slot → Action Session Unit
  | [] => pure ()
  | slot :: rest => do
    declareSlot net sink slot
    declareSlots net sink rest

end Session

end MaterialNet
