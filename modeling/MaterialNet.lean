import MaterialNet.Description.Json
import MaterialNet.Digest.XXH3
import MaterialNet.Network.Reachable
import MaterialNet.Proofs.Acyclic
import MaterialNet.Proofs.Editing
import MaterialNet.Proofs.Visits
import MaterialNet.Session.Program
import MaterialNet.Template.Json
import MaterialNet.Proofs.Declaring
import MaterialNet.Proofs.Writing
import MaterialNet.Proofs.Compiling
import MaterialNet.Proofs.Alike
import MaterialNet.Proofs.Likeness
import MaterialNet.Proofs.Grammar
import MaterialNet.Proofs.Execution
import MaterialNet.Proofs.Legible
import MaterialNet.Proofs.Meaning
import MaterialNet.Proofs.Spelling
import MaterialNet.Proofs.Evaluation
import MaterialNet.Proofs.Lowering
import MaterialNet.Proofs.Serving
import MaterialNet.Session.Request
import MaterialNet.Proofs.Abreast
import MaterialNet.Proofs.Staging
import MaterialNet.Proofs.Reaching
import MaterialNet.Proofs.Listing
import MaterialNet.Proofs.History
import MaterialNet.Proofs.Guarding
import MaterialNet.Proofs.Collecting
import MaterialNet.Proofs.Uniforms
import MaterialNet.Proofs.Names
import MaterialNet.Proofs.Scoping
import MaterialNet.Proofs.Emission
import MaterialNet.Proofs.Rebuilding
import MaterialNet.Proofs.Hygiene
import MaterialNet.Proofs.Preservation
import MaterialNet.Proofs.Handles
import MaterialNet.Proofs.Identifiers
import MaterialNet.Proofs.Loading
import MaterialNet.Proofs.Decoding
import MaterialNet.Proofs.Bookkeeping
import MaterialNet.Proofs.Printable
import MaterialNet.Proofs.Configuring
import MaterialNet.Proofs.Presentation
import MaterialNet.Proofs.Showing
import MaterialNet.Proofs.Relaying
import MaterialNet.Proofs.Recursion
import MaterialNet.Proofs.Memo
import MaterialNet.Proofs.Incremental
import MaterialNet.Proofs.Nearest
import MaterialNet.Proofs.Separation
import MaterialNet.Proofs.Shortest
import MaterialNet.Proofs.Literals
import MaterialNet.Proofs.Reloading
import MaterialNet.Proofs.Rounds
import MaterialNet.Proofs.Totality
import MaterialNet.Proofs.Verbatim
