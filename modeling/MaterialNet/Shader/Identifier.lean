import MaterialNet.Fault
import MaterialNet.Shader.Expr

namespace MaterialNet

/-!
# Identifiers

What a name of the shader language looks like, and the names that a node cannot have because a
program uses them already.

* `keywords` — keywords and reserved words of version 3.30 of the shader language
* `defaultUv`, `timeUniform`, `programNames` — names that the stage programs declare
* `calledNames` — functions that generated text calls
* `isWellFormed` — what an identifier of the shader language looks like
* `checkIdentifier` — whether a node may have a name
-/

/-! ### Words that are taken -/

/-- The mesh's texture coordinates, read where a coordinate input is missing. -/
def defaultUv : String := "TexCoords"

/-- The running time in seconds, which panners read. -/
def timeUniform : String := "u_Time"

/-- Names that the stage programs declare. -/
def programNames : List String :=
  ["main", defaultUv, timeUniform, "FragPos", "TBN", "AlbedoOut", "NormalOut", "MaterialOut",
    "EmissiveOut", "Metallic", "Roughness", "AmbientOcclusion", "VertexOffset", "u_Model",
    "u_View", "u_Projection", "a_Position", "a_Normal", "a_TexCoords", "a_Tangent",
    "a_Bitangent", "worldPos", "T", "B", "N"]

/-- Keywords of the shader language. -/
def plainKeywords : List String :=
  ["attribute", "const", "uniform", "varying", "layout", "centroid", "flat", "smooth",
    "noperspective", "break", "continue", "do", "for", "while", "switch", "case", "default",
    "if", "else", "in", "out", "inout", "float", "int", "void", "bool", "true", "false",
    "invariant", "discard", "return", "mat2", "mat3", "mat4", "mat2x2", "mat2x3", "mat2x4",
    "mat3x2", "mat3x3", "mat3x4", "mat4x2", "mat4x3", "mat4x4", "vec2", "vec3", "vec4",
    "ivec2", "ivec3", "ivec4", "bvec2", "bvec3", "bvec4", "uint", "uvec2", "uvec3", "uvec4",
    "lowp", "mediump", "highp", "precision", "struct"]

/-- Sampler types of the shader language. -/
def samplerKeywords : List String :=
  ["sampler1D", "sampler2D", "sampler3D", "samplerCube", "sampler1DShadow",
    "sampler2DShadow", "samplerCubeShadow", "sampler1DArray", "sampler2DArray",
    "sampler1DArrayShadow", "sampler2DArrayShadow", "isampler1D", "isampler2D",
    "isampler3D", "isamplerCube", "isampler1DArray", "isampler2DArray", "usampler1D",
    "usampler2D", "usampler3D", "usamplerCube", "usampler1DArray", "usampler2DArray",
    "sampler2DRect", "sampler2DRectShadow", "isampler2DRect", "usampler2DRect",
    "samplerBuffer", "isamplerBuffer", "usamplerBuffer", "sampler2DMS", "isampler2DMS",
    "usampler2DMS", "sampler2DMSArray", "isampler2DMSArray", "usampler2DMSArray"]

/-- Words that the shader language keeps for later use. -/
def futureKeywords : List String :=
  ["common", "partition", "active", "asm", "class", "union", "enum", "typedef", "template",
    "this", "packed", "goto", "inline", "noinline", "volatile", "public", "static", "extern",
    "external", "interface", "long", "short", "double", "half", "fixed", "unsigned", "superp",
    "input", "output", "hvec2", "hvec3", "hvec4", "dvec2", "dvec3", "dvec4", "fvec2",
    "fvec3", "fvec4", "sampler3DRect", "filter", "image1D", "image2D", "image3D",
    "imageCube", "iimage1D", "iimage2D", "iimage3D", "iimageCube", "uimage1D", "uimage2D",
    "uimage3D", "uimageCube", "image1DArray", "image2DArray", "iimage1DArray",
    "iimage2DArray", "uimage1DArray", "uimage2DArray", "image1DShadow", "image2DShadow",
    "image1DArrayShadow", "image2DArrayShadow", "imageBuffer", "iimageBuffer",
    "uimageBuffer", "sizeof", "cast", "namespace", "using", "row_major"]

/-- All keywords and reserved words. -/
def keywords : List String := plainKeywords ++ samplerKeywords ++ futureKeywords

/-- The functions that generated text calls; a variable of that name would hide them. -/
def calledNames : List String := (Named.all : List Builtin).map Named.name

/-- A word that a node cannot have as its name. -/
def isTaken (word : String) : Bool :=
  programNames.contains word || keywords.contains word || calledNames.contains word

/-! ### Well-formed names -/

/-- An ASCII letter or an underscore. -/
def isIdentifierStart (c : Char) : Bool := c.isAlpha || c = '_'

/-- An ASCII letter, an ASCII digit or an underscore. -/
def isIdentifierChar (c : Char) : Bool := c.isAlphanum || c = '_'

/-- Two underscores stand next to each other. -/
def hasDoubleUnderscore : List Char → Bool
  | '_' :: '_' :: _ => true
  | _ :: rest => hasDoubleUnderscore rest
  | [] => false

/-- The language's own names start with these characters. -/
def languageStart : List Char := ['g', 'l', '_']

/-- A well-formed identifier: not empty, of letters, digits and underscores, with no digit in
    front, not starting like the language's own names, and without two underscores in a row. -/
def isWellFormed (name : String) : Bool :=
  match name.toList with
  | [] => false
  | c :: rest =>
    isIdentifierStart c && rest.all isIdentifierChar
      && !languageStart.isPrefixOf (c :: rest) && !hasDoubleUnderscore (c :: rest)

/-- Refuses a name that is not a well-formed identifier or that is taken. -/
def checkIdentifier (name : String) : Except Fault Unit :=
  if !isWellFormed name then .error (.malformedName name)
  else if isTaken name then .error (.takenName name)
  else .ok ()

end MaterialNet
