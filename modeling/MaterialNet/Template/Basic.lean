import MaterialNet.Template.Value

namespace MaterialNet

/-!
# Templates — texts with places to fill in

A template is a text with variables, written `{{ name }}`, and loops over lists of values, written
`{$ for item in items $}` … `{$ endfor $}`.  A line that holds nothing but a loop tag leaves no
trace.

* `Template` — a template as pieces, with `Template.ofChars?` to read one
* `Template.render` — the text with everything filled in
-/

namespace Template

/-! ### Pieces -/

/-- A text or a variable. -/
inductive Segment where
  | text (s : String)
  | variable (name : String)
deriving DecidableEq, Repr

/-- A part of a template: a segment, or segments repeated for every item of a list. -/
inductive Piece where
  | segment (s : Segment)
  | loop (item items : String) (body : List Segment)
deriving DecidableEq, Repr

end Template

/-- A template, as its parts in order. -/
abbrev Template := List Template.Piece

namespace Template

/-! ### Reading a source -/

/-- What the source of a template is made of. -/
inductive Mark where
  | text (s : String)
  | variable (name : String)
  | forEach (item items : String)
  | endFor
deriving DecidableEq, Repr

/-- Where the reader of a source stands: in plain text, in a variable, or in a tag. -/
inductive Mode where
  | plain
  | variable
  | tag
deriving DecidableEq, Repr

/-- A space or a tab. -/
def isBlank (c : Char) : Bool := c = ' ' || c = '\t'

/-- Splits at blanks and newlines, leaving out empty words; `word` holds the current one, last
    character first. -/
def words (word : List Char) : List Char → List String
  | [] => if word.isEmpty then [] else [String.ofList word.reverse]
  | c :: rest =>
    if isBlank c || c = '\n' then
      if word.isEmpty then words [] rest else String.ofList word.reverse :: words [] rest
    else words (c :: word) rest

/-- A text mark, if there is any text; `before` is the text, last character first. -/
def textMark (before : List Char) : List Mark :=
  if before.isEmpty then [] else [.text (String.ofList before.reverse)]

/-- Leaves out the blanks at the end of a text if they reach back to the start of its line. -/
def stripIndent (before : List Char) : List Char :=
  let rest := before.dropWhile isBlank
  match rest with
  | [] => []
  | '\n' :: _ => rest
  | _ => before

/-- The variable that stands between the braces. -/
def variableMark? (inside : List Char) : Option Mark :=
  match words [] inside with
  | [name] => some (.variable name)
  | _ => none

/-- The tag that stands between the braces. -/
def tagMark? (inside : List Char) : Option Mark :=
  match words [] inside with
  | ["for", item, "in", items] => some (.forEach item items)
  | ["endfor"] => some .endFor
  | _ => none

/-- The marks of a source.  `seen` holds the characters of the current text, variable or tag, last
    one first.  A tag takes the blanks before it on its line and the newline after it along. -/
def scan : Mode → List Char → List Char → Option (List Mark)
  | .plain, seen, [] => some (textMark seen)
  | .plain, seen, '\x7b' :: '\x7b' :: rest => (textMark seen ++ ·) <$> scan .variable [] rest
  | .plain, seen, '\x7b' :: '$' :: rest => (textMark (stripIndent seen) ++ ·) <$> scan .tag [] rest
  | .plain, seen, c :: rest => scan .plain (c :: seen) rest
  | .variable, seen, '\x7d' :: '\x7d' :: rest => do
    let mark ← variableMark? seen.reverse
    (mark :: ·) <$> scan .plain [] rest
  | .tag, seen, '$' :: '\x7d' :: '\n' :: rest => do
    let mark ← tagMark? seen.reverse
    (mark :: ·) <$> scan .plain [] rest
  | .tag, seen, '$' :: '\x7d' :: rest => do
    let mark ← tagMark? seen.reverse
    (mark :: ·) <$> scan .plain [] rest
  | .variable, seen, c :: rest => scan .variable (c :: seen) rest
  | .tag, seen, c :: rest => scan .tag (c :: seen) rest
  | .variable, _, [] | .tag, _, [] => none

/-- A loop that has been entered: its item, its list, and its body so far, last segment first. -/
structure OpenLoop where
  item : String
  items : String
  body : List Segment

/-- The pieces of a list of marks, inside a loop or not; loops do not nest. -/
def ofMarks? : Option OpenLoop → List Mark → Option Template
  | none, [] => some []
  | none, .text s :: rest => (.segment (.text s) :: ·) <$> ofMarks? none rest
  | none, .variable name :: rest => (.segment (.variable name) :: ·) <$> ofMarks? none rest
  | none, .forEach item items :: rest => ofMarks? (some ⟨item, items, []⟩) rest
  | some l, .text s :: rest => ofMarks? (some { l with body := .text s :: l.body }) rest
  | some l, .variable name :: rest =>
    ofMarks? (some { l with body := .variable name :: l.body }) rest
  | some l, .endFor :: rest => (.loop l.item l.items l.body.reverse :: ·) <$> ofMarks? none rest
  | none, .endFor :: _ | some _, .forEach _ _ :: _ | some _, [] => none

/-- A text without the newline at its end, if it has one. -/
def dropFinalNewline (cs : List Char) : List Char :=
  match cs.getLast? with
  | some '\n' => cs.dropLast
  | _ => cs

/-- The template of a source; `none` if the source is not well formed. -/
def ofChars? (source : List Char) : Option Template :=
  (scan .plain [] (dropFinalNewline source)).bind (ofMarks? none)

/-! ### Filling in -/

/-- Why a template cannot be filled in. -/
inductive Fault where
  /-- A name stands for nothing. -/
  | undefined (name : String)
  /-- A loop is to run through a value that has no items. -/
  | notIterable (name : String)
  /-- The source of the template is not well formed. -/
  | malformed
deriving DecidableEq, Repr

/-- The text of a variable. -/
def Context.text (context : Context) (name : String) : Except Fault String :=
  match context.lookup name with
  | some value => .ok value.print
  | none => .error (.undefined name)

/-- The items that a loop runs over. -/
def Context.items (context : Context) (name : String) : Except Fault (List Value) :=
  match context.lookup name with
  | none => .error (.undefined name)
  | some value =>
    match value.items? with
    | some items => .ok items
    | none => .error (.notIterable name)

/-- The text of a segment. -/
def Segment.render (context : Context) : Segment → Except Fault String
  | .text s => .ok s
  | .variable name => context.text name

/-- The text of several segments. -/
def renderSegments (context : Context) (segments : List Segment) : Except Fault String :=
  String.join <$> segments.mapM (Segment.render context)

/-- The text of a piece; a loop renders its body once for every item. -/
def Piece.render (context : Context) : Piece → Except Fault String
  | .segment s => s.render context
  | .loop item items body => do
    let values ← context.items items
    String.join <$> values.mapM fun value => renderSegments ((item, value) :: context) body

/-- The text of a template with everything filled in. -/
def render (template : Template) (context : Context) : Except Fault String :=
  String.join <$> template.mapM (Piece.render context)

end Template

end MaterialNet
