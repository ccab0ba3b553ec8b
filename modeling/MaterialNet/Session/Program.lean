import MaterialNet.Session.Declare
import MaterialNet.Session.Evaluate
import MaterialNet.Template.Stages

namespace MaterialNet

/-!
# Programs

* `Session.writeStage` — the body lines of one stage, with its declarations left in the session
* `Session.assemble` — the program of one stage
* `Program`, `Network.compile` — both programs of a network and their manifest
-/

/-! ### One stage -/

namespace Session

/-- The body lines of a stage.  The declarations of everything that the stage needs are left in the
    session. -/
def writeStage (net : Network) (stage : Stage) : Action Session (List Line) := do
  ensureAcyclic net
  Action.modifyState fun s => s.enterStage stage
  let sink ← Action.lift (net.get net.sink)
  declareSlots net sink stage.slots
  let body ← evaluate net net.sink
  let s ← Action.getState
  Action.note [.stageWritten stage s.declarations.size body.length]
  pure body

/-- The program of a stage: its declarations and body lines, put into its template. -/
def assemble (net : Network) (stage : Stage) : Action Session String := do
  let body ← writeStage net stage
  let s ← Action.getState
  match renderStage stage net.settings.version (s.declarations.toList.map Declaration.text)
      (body.map Line.text) with
  | .ok text => pure text
  | .error fault => Action.lift (.error (.template fault))

end Session

/-- The program of a stage, from a session of its own. -/
def Network.assemble (net : Network) (stage : Stage) : Outcome Session String :=
  (Session.assemble net stage).run .fresh

/-! ### Both stages -/

/-- What a network compiles to. -/
structure Program where
  vertex : String
  fragment : String
  manifest : Manifest
deriving DecidableEq, Repr

namespace Program

/-- The bytes that stand for a program: the vertex text, a zero byte, and the fragment text. -/
def bytes (p : Program) : List UInt8 :=
  p.vertex.toUTF8.data.toList ++ 0 :: p.fragment.toUTF8.data.toList

end Program

/-- Assembles both stages in one session, the vertex stage first. -/
def Session.compile (net : Network) : Action Session Program := do
  ensureAcyclic net
  let vertex ← assemble net .vertex
  let fragment ← assemble net .fragment
  let s ← Action.getState
  Action.note [.compiled net.size s.manifest.size]
  pure ⟨vertex, fragment, s.manifest⟩

/-- Compiles a network in a session of its own. -/
def Network.compile (net : Network) : Outcome Session Program :=
  (Session.compile net).run .fresh

end MaterialNet
