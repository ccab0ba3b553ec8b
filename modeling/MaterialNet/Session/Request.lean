import MaterialNet.Session.Program

namespace MaterialNet

/-!
# Requests — a session from outside

A session is asked one thing after another.  A request that fails is answered with its fault, and
the session goes on from what the request has left behind.

* `Request`, `Reply` — what a session is asked, and what it answers
* `Session.reset` — forgets everything
* `Session.serve`, `Session.serveAll` — one request, and several in order
* `Session.after` — what several requests make of a new session
-/

/-- A request to a session. -/
inductive Request where
  /-- Search the network for cycles. -/
  | check
  /-- Assemble the program of a stage. -/
  | assemble (stage : Stage)
  /-- Write the statements that compute a node, or that write the sink. -/
  | evaluate (h : Handle)
  /-- The expression that reads a facet. -/
  | facetExpr (h : Handle) (facet : Facet)
  /-- The type of a facet. -/
  | facetType (h : Handle) (facet : Facet)
  /-- Forget everything. -/
  | reset
  /-- The current stage. -/
  | stage
  /-- The declarations collected for the current stage. -/
  | declarations
  /-- The manifest so far. -/
  | manifest
deriving DecidableEq, Repr

/-- The answer to a request that does not fail. -/
inductive Reply where
  | done
  | text (text : String)
  | expr (e : Expr)
  | type (type : ValueType)
  | stage (stage : Stage)
  | declarations (texts : List String)
  | manifest (m : Manifest)
deriving Repr

namespace Session

/-- Drops what has been assembled, the manifest and the texture units among it. -/
def reset (s : Session) : Session :=
  { s.enterStage .vertex with
    manifest := .empty
    boundTextures := 0
    acyclic := false }

/-- Serves a request. -/
def serve (net : Network) : Request → Action Session Reply
  | .check => do
    ensureAcyclic net
    pure .done
  | .assemble stage => do
    let text ← assemble net stage
    pure (.text text)
  | .evaluate h => do
    let lines ← evaluate net h
    pure (.text (linesText lines))
  | .facetExpr h facet => do
    let node ← Action.lift (net.get h)
    let e ← Action.lift (node.facetExpr facet)
    pure (.expr e)
  | .facetType h facet => do
    let node ← Action.lift (net.get h)
    let type ← Action.lift (node.facetType facet)
    pure (.type type)
  | .reset => do
    Action.modifyState reset
    pure .done
  | .stage => do
    let s ← Action.getState
    pure (.stage s.stage)
  | .declarations => do
    let s ← Action.getState
    pure (.declarations (s.declarations.toList.map Declaration.text))
  | .manifest => do
    let s ← Action.getState
    pure (.manifest s.manifest)

/-- Serves requests in order; a request that fails does not keep the next one from being served. -/
def serveAll (net : Network) : List Request → Session → List (Except Fault Reply) × Session
  | [], s => ([], s)
  | r :: rest, s =>
    let outcome := (serve net r).run s
    let (replies, s') := serveAll net rest outcome.state
    (outcome.result :: replies, s')

/-- A session of a network that has served the given requests. -/
def after (net : Network) (requests : List Request) : Session := (serveAll net requests .fresh).2

end Session

end MaterialNet
