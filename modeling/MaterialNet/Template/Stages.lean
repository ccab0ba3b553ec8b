import MaterialNet.Choices
import MaterialNet.Template.Basic

namespace MaterialNet

/-!
# The stage programs

Each stage has a template: a whole program with loops for the declarations and for the body lines
that a material adds.

* `Stage.source`, `Stage.template?` — the template of a stage
* `templateSource?` — a template's source by name
* `renderStage` — the program around given declarations and body lines
-/

/-- The vertex program: it moves the mesh and passes coordinates on. -/
def vertexLines : List String := [
  "#version \x7b\x7b version \x7d\x7d core",
  "// === Auto-generated material vertex shader ===",
  "",
  "layout (location = 0) in vec3 a_Position;",
  "layout (location = 1) in vec3 a_Normal;",
  "layout (location = 2) in vec2 a_TexCoords;",
  "layout (location = 3) in vec3 a_Tangent;",
  "layout (location = 4) in vec3 a_Bitangent;",
  "",
  "out vec3 FragPos;",
  "out vec2 TexCoords;",
  "out mat3 TBN;",
  "",
  "uniform mat4 u_Model;",
  "uniform mat4 u_View;",
  "uniform mat4 u_Projection;",
  "uniform float u_Time;",
  "",
  "\x7b$ for line in declarations $\x7d",
  "\x7b\x7b line \x7d\x7d",
  "\x7b$ endfor $\x7d",
  "",
  "void main()",
  "\x7b",
  "    TexCoords = a_TexCoords;",
  "    vec4 VertexOffset = vec4(0.0);",
  "",
  "\x7b$ for line in body $\x7d",
  "    \x7b\x7b line \x7d\x7d",
  "\x7b$ endfor $\x7d",
  "",
  "    vec3 T = normalize(vec3(u_Model * vec4(a_Tangent, 0.0)));",
  "    vec3 B = normalize(vec3(u_Model * vec4(a_Bitangent, 0.0)));",
  "    vec3 N = normalize(vec3(u_Model * vec4(a_Normal, 0.0)));",
  "    TBN = mat3(T, B, N);",
  "",
  "    vec4 worldPos = u_Model * vec4(a_Position + VertexOffset.xyz, 1.0);",
  "    FragPos = worldPos.xyz;",
  "    gl_Position = u_Projection * u_View * worldPos;",
  "\x7d"]

/-- The fragment program: it fills the outputs of a surface. -/
def fragmentLines : List String := [
  "#version \x7b\x7b version \x7d\x7d core",
  "// === Auto-generated material fragment shader ===",
  "",
  "in vec3 FragPos;",
  "in vec2 TexCoords;",
  "in mat3 TBN;",
  "",
  "layout (location = 0) out vec4 AlbedoOut;",
  "layout (location = 1) out vec4 NormalOut;",
  "layout (location = 2) out vec4 MaterialOut;",
  "layout (location = 3) out vec4 EmissiveOut;",
  "",
  "uniform float u_Time;",
  "",
  "\x7b$ for line in declarations $\x7d",
  "\x7b\x7b line \x7d\x7d",
  "\x7b$ endfor $\x7d",
  "",
  "void main()",
  "\x7b",
  "    float Metallic = 0.0;",
  "    float Roughness = 0.5;",
  "    float AmbientOcclusion = 1.0;",
  "    AlbedoOut = vec4(1.0);",
  "    NormalOut = vec4(normalize(TBN[2]), 1.0);",
  "    EmissiveOut = vec4(0.0, 0.0, 0.0, 1.0);",
  "",
  "\x7b$ for line in body $\x7d",
  "    \x7b\x7b line \x7d\x7d",
  "\x7b$ endfor $\x7d",
  "",
  "    EmissiveOut.a = 1.0;",
  "\x7d"]

namespace Stage

/-- The lines of a stage's template. -/
def lines : Stage → List String
  | .vertex => vertexLines
  | .fragment => fragmentLines

/-- The characters of a stage's template, every line ended. -/
def sourceChars (stage : Stage) : List Char :=
  stage.lines.flatMap fun line => line.toList ++ ['\n']

/-- The source of a stage's template. -/
def source (stage : Stage) : String := String.ofList stage.sourceChars

/-- The name of a stage's template. -/
def templateName : Stage → String
  | .vertex => "material.vert"
  | .fragment => "material.frag"

/-- The template of a stage. -/
def template? (stage : Stage) : Option Template := Template.ofChars? stage.sourceChars

end Stage

/-! ### Templates by name -/

/-- Whether a file name ends in `.glsl`, in any case, after at least one other character. -/
def hasShaderExtension (name : String) : Bool :=
  let tail := name.toList.reverse.take 5
  tail.map Char.toLower = "lslg.".toList && 5 < name.length

/-- The source of the template with the given name; the extension `.glsl` may be left out. -/
def templateSource? (name : String) : Option String :=
  let file := if hasShaderExtension name then name else name ++ ".glsl"
  ((Named.all : List Stage).find? fun stage => stage.templateName ++ ".glsl" == file).map
    Stage.source

/-! ### Rendering a stage -/

/-- What the names of a stage's template stand for. -/
def stageContext (version : UInt32) (declarations body : List String) : Template.Context :=
  [("version", .number (.integer version.toNat)),
    ("declarations", .list (declarations.map .text)),
    ("body", .list (body.map .text))]

/-- A text with a newline at its end. -/
def endLine (s : String) : String := if s.endsWith "\n" then s else s ++ "\n"

/-- The program of a stage around the declarations and body lines of a material. -/
def renderStage (stage : Stage) (version : UInt32) (declarations body : List String) :
    Except Template.Fault String :=
  match stage.template? with
  | none => .error .malformed
  | some template => endLine <$> template.render (stageContext version declarations body)

end MaterialNet
