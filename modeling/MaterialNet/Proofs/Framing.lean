import MaterialNet.Proofs.Action
import MaterialNet.Template.Stages

namespace MaterialNet

/-!
# The lines of a program

A program is the lines of its stage's template, with the declarations and the body lines of a
material in their places.

* `Stage.chars` — the characters of a template, line by line
* `Stage.opening`, `Stage.middle`, `Stage.closing` — the lines around the loops of a template
* `Stage.program`, `renderStage_eq` — the lines of a program, which rendering a stage gives
-/

/-! ### Lines and their characters -/

/-- The characters of some lines. -/
def Spelled (lines : List String) (chars : List (List Char)) : Prop :=
  List.Forall₂ (fun line cs => line = String.ofList cs) lines chars

namespace Spelled

variable {line : String} {lines : List String} {cs : List Char} {chars : List (List Char)}

/-- One more line is spelled. -/
theorem cons (h : line = String.ofList cs) (h' : Spelled lines chars) :
    Spelled (line :: lines) (cs :: chars) := List.Forall₂.cons h h'

/-- The characters of spelled lines. -/
theorem map_toList (h : Spelled lines chars) : lines.map String.toList = chars := by
  induction h with
  | nil => rfl
  | cons h _ ih => rw [List.map_cons, ih, h, String.toList_ofList]

end Spelled

/-- The characters of the vertex program's template.  They are found by unification once, since
    taking a text apart is slow where facts about it are computed. -/
def vertexChars : {chars // Spelled vertexLines chars} :=
  ⟨_, by
    simp only [vertexLines]
    repeat apply Spelled.cons rfl
    exact .nil⟩

/-- The characters of the fragment program's template. -/
def fragmentChars : {chars // Spelled fragmentLines chars} :=
  ⟨_, by
    simp only [fragmentLines]
    repeat apply Spelled.cons rfl
    exact .nil⟩

/-- The characters of some lines, each one ended. -/
def endAll (chars : List (List Char)) : List Char := chars.flatMap (· ++ ['\n'])

/-- The text of some lines, each one ended. -/
def unlines (lines : List String) : String := String.join (lines.map (· ++ "\n"))

/-- The characters of a text are those of its lines, each with its end. -/
theorem toList_unlines (lines : List String) :
    (unlines lines).toList = endAll (lines.map String.toList) := by
  simp [unlines, endAll, List.flatMap_map]

/-- Two groups of lines stand one after the other. -/
theorem unlines_append (lines lines' : List String) :
    unlines (lines ++ lines') = unlines lines ++ unlines lines' := by
  simp [unlines]

/-- The first line, its end, and the other lines. -/
theorem unlines_cons (line : String) (lines : List String) :
    unlines (line :: lines) = line ++ "\n" ++ unlines lines := by
  simp [unlines]

/-- The text of lines that are given by their characters. -/
theorem ofList_endAll (chars : List (List Char)) :
    String.ofList (endAll chars) = unlines (chars.map String.ofList) := by
  rw [← String.toList_inj, String.toList_ofList, toList_unlines, List.map_map]
  congr 1
  exact (List.map_id'' (fun cs => String.toList_ofList) chars).symm

namespace Stage

/-! ### The parts of a template -/

/-- The characters of a stage's template, line by line. -/
def chars : Stage → List (List Char)
  | .vertex => vertexChars.1
  | .fragment => fragmentChars.1

/-- A template's source is given line by line. -/
theorem sourceChars_eq (stage : Stage) : stage.sourceChars = endAll stage.chars := by
  have h : stage.lines.map String.toList = stage.chars := by
    cases stage
    · exact vertexChars.2.map_toList
    · exact fragmentChars.2.map_toList
  rw [sourceChars, ← h, endAll, List.flatMap_map]

/-- The line is the tag of a loop. -/
def isTag : List Char → Bool
  | '\x7b' :: '$' :: _ => true
  | _ => false

/-- The lines after the next loop, which takes up three lines. -/
def afterLoop (chars : List (List Char)) : List (List Char) :=
  (chars.dropWhile fun line => !isTag line).drop 3

/-- The lines before the declarations, without the first one, which holds the version. -/
def opening (stage : Stage) : List (List Char) :=
  (stage.chars.takeWhile fun line => !isTag line).tail

/-- The lines between the declarations and the body lines. -/
def middle (stage : Stage) : List (List Char) :=
  (afterLoop stage.chars).takeWhile fun line => !isTag line

/-- The lines after the body lines. -/
def closing (stage : Stage) : List (List Char) := afterLoop (afterLoop stage.chars)

/-- The template of a stage, put together from its parts. -/
def frame (stage : Stage) : Template :=
  [.segment (.text "#version "), .segment (.variable "version"),
    .segment (.text (String.ofList (" core\n".toList ++ endAll stage.opening))),
    .loop "line" "declarations" [.variable "line", .text "\n"],
    .segment (.text (String.ofList (endAll stage.middle))),
    .loop "line" "body" [.text "    ", .variable "line", .text "\n"],
    .segment (.text (String.ofList (Template.dropFinalNewline (endAll stage.closing))))]

set_option maxRecDepth 10000 in
/-- The template of a stage is read as its frame. -/
theorem template?_eq (stage : Stage) : stage.template? = some stage.frame := by
  rw [template?, sourceChars_eq]
  cases stage <;> rfl

/-- The lines of a program. -/
def program (stage : Stage) (version : UInt32) (declarations body : List String) : List String :=
  ("#version " ++ toString version.toNat ++ " core") :: stage.opening.map String.ofList
    ++ declarations ++ stage.middle.map String.ofList ++ body.map ("    " ++ ·)
    ++ stage.closing.map String.ofList

end Stage

/-! ### Filling a template in -/

namespace Template

variable {context : Context}

/-- A loop writes each of its items in the way that its body says. -/
theorem render_loop {items : String} {body : List Segment} {texts : List String}
    {f : String → String} (h : context.lookup items = some (.list (texts.map .text)))
    (hbody : ∀ text, renderSegments (("line", .text text) :: context) body = .ok (f text)) :
    Piece.render context (.loop "line" items body) = .ok (String.join (texts.map f)) := by
  -- The body is rendered once for each item, with the line as its variable.
  have hall : ∀ ts : List String, (ts.map Value.text).mapM
      (fun value => renderSegments (("line", value) :: context) body)
        = (.ok (ts.map f) : Except Fault _) := by
    intro ts
    induction ts with
    | nil => rfl
    | cons t ts ih =>
      rw [List.map_cons, List.mapM_cons, hbody, ih]
      rfl
  have hitems : context.items items = .ok (texts.map .text) := by
    simp [Context.items, h, Value.items?]
  exact bind_ok_iff.2 ⟨_, hitems, map_ok_iff.2 ⟨_, hall texts, rfl⟩⟩

/-- A template is rendered piece by piece. -/
theorem render_cons {p : Piece} {rest : Template} {text text' : String}
    (h : p.render context = .ok text) (h' : rest.render context = .ok text') :
    Template.render (p :: rest) context = .ok (text ++ text') := by
  obtain ⟨texts, hrest, rfl⟩ := map_ok_iff.1 h'
  refine map_ok_iff.2 ⟨text :: texts, ?_, String.join_cons⟩
  rw [List.mapM_cons, h, hrest]
  rfl

/-- The last end of a line is dropped. -/
theorem dropFinalNewline_append (cs : List Char) : dropFinalNewline (cs ++ ['\n']) = cs := by
  simp [dropFinalNewline]

end Template

/-- A text that ends in a bracket is ended by a newline. -/
theorem endLine_append (s : String) (cs : List Char) :
    endLine (s ++ String.ofList (cs ++ ['\x7d']))
      = s ++ String.ofList (cs ++ ['\x7d'] ++ ['\n']) := by
  have hends : (s ++ String.ofList (cs ++ ['\x7d'])).endsWith "\n" = false := by
    rw [String.endsWith_eq_endsWith_toSlice, String.Slice.endsWith_string_eq_false_iff,
      String.copy_toSlice]
    rintro ⟨before, heq⟩
    have hlast := congrArg List.getLast? heq
    simp at hlast
  rw [endLine, hends, if_neg Bool.false_ne_true, ← String.toList_inj]
  simp

/-- The last line of a template is a bracket. -/
theorem Stage.closing_eq (stage : Stage) :
    stage.closing = stage.closing.dropLast ++ [['\x7d']] := by
  cases stage <;> rfl

open Template in
/-- Rendering a stage gives its lines. -/
theorem renderStage_eq (stage : Stage) (version : UInt32) (declarations body : List String) :
    renderStage stage version declarations body
      = .ok (unlines (stage.program version declarations body)) := by
  set context := stageContext version declarations body
  have hdeclarations : Piece.render context
      (.loop "line" "declarations" [.variable "line", .text "\n"]) = .ok (unlines declarations) :=
    render_loop rfl fun text => rfl
  have hbody : Piece.render context
      (.loop "line" "body" [.text "    ", .variable "line", .text "\n"])
        = .ok (String.join (body.map fun text => "    " ++ (text ++ "\n"))) :=
    render_loop rfl fun text => rfl
  have hversion : Piece.render context (.segment (.variable "version"))
      = .ok (toString version.toNat) := rfl
  have htext (text : String) : Piece.render context (.segment (.text text)) = .ok text := rfl
  have hframe : stage.frame.render context = _ :=
    render_cons (htext _) <| render_cons hversion <| render_cons (htext _) <|
    render_cons hdeclarations <| render_cons (htext _) <| render_cons hbody <|
    render_cons (htext _) <| (rfl : Template.render [] context = .ok "")
  simp only [renderStage, stage.template?_eq]
  refine map_ok_iff.2 ⟨_, hframe, ?_⟩
  -- The last newline of the source has been dropped, and the end of the text gets it back.
  have hclosing : endAll stage.closing
      = (endAll stage.closing.dropLast ++ ['\x7d']) ++ ['\n'] := by
    conv_lhs => rw [stage.closing_eq]
    simp [endAll]
  have hlast := ofList_endAll stage.closing
  have hfirst : String.ofList (" core\n".toList ++ endAll stage.opening)
      = " core" ++ "\n" ++ unlines (stage.opening.map String.ofList) := by
    rw [String.ofList_append, String.ofList_toList, ofList_endAll]
    rfl
  have hindented : String.join (body.map fun text => "    " ++ (text ++ "\n"))
      = unlines (body.map ("    " ++ ·)) := by
    simp [unlines, String.append_assoc, Function.comp_def]
  rw [hclosing] at hlast
  rw [hclosing, dropFinalNewline_append, hindented]
  simp only [← String.append_assoc, List.reverse_nil, String.join_nil, String.append_empty,
    endLine_append, hlast, hfirst, ofList_endAll, Stage.program, unlines_append, unlines_cons]

end MaterialNet
