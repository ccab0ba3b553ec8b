import MaterialNet.Proofs.Framing

namespace MaterialNet

/-!
# Programs hold what they are given

The source of a stage's template consists of three fixed texts, with the version before the first
and a loop on either side of the second.  A program consists of the same texts, with the version
itself, the declarations and the body lines in these places.  No character of a declaration or of a
body line is read as part of the template, since the template is read before they are put in.

* `Stage.before`, `Stage.between`, `Stage.after` — the fixed texts
* `loopSource` — a loop in the source of a template
* `Stage.Verbatim`, `Stage.verbatim` — the source and the programs of a stage
-/

/-! ### Parts of a source -/

/-- A loop over a list of lines in the source of a template: its tags have lines of their own, and
    so has its item, after some blanks. -/
def loopSource (items indent : String) : String :=
  "\x7b$ for line in " ++ items ++ " $\x7d\n" ++ (indent ++ "\x7b\x7b line \x7d\x7d\n")
    ++ "\x7b$ endfor $\x7d\n"

/-- Somewhere in the text a variable or a tag begins. -/
def opensTag : List Char → Bool
  | c :: d :: rest => c = '\x7b' && (d = '\x7b' || d = '$') || opensTag (d :: rest)
  | _ => false

theorem loopSource_declarations : loopSource "declarations" ""
    = unlines ["\x7b$ for line in declarations $\x7d", "\x7b\x7b line \x7d\x7d",
      "\x7b$ endfor $\x7d"] := by
  decide

theorem loopSource_body : loopSource "body" "    "
    = unlines ["\x7b$ for line in body $\x7d", "    \x7b\x7b line \x7d\x7d",
      "\x7b$ endfor $\x7d"] := by
  decide

namespace Stage

/-! ### The fixed texts -/

/-- The text between the version and the declarations. -/
def before (stage : Stage) : String := " core\n" ++ unlines (stage.opening.map String.ofList)

/-- The text between the declarations and the body lines. -/
def between (stage : Stage) : String := unlines (stage.middle.map String.ofList)

/-- The text after the body lines. -/
def after (stage : Stage) : String := unlines (stage.closing.map String.ofList)

theorem chars_eq (stage : Stage) :
    stage.chars = ["#version \x7b\x7b version \x7d\x7d core"].map String.toList ++ stage.opening
      ++ ["\x7b$ for line in declarations $\x7d", "\x7b\x7b line \x7d\x7d",
        "\x7b$ endfor $\x7d"].map String.toList
      ++ stage.middle
      ++ ["\x7b$ for line in body $\x7d", "    \x7b\x7b line \x7d\x7d",
        "\x7b$ endfor $\x7d"].map String.toList
      ++ stage.closing := by
  cases stage <;> decide +kernel

/-- The source of a template has lines of its own around its loops. -/
theorem source_eq_unlines (stage : Stage) :
    stage.source = unlines ["#version \x7b\x7b version \x7d\x7d core"]
      ++ unlines (stage.opening.map String.ofList) ++ loopSource "declarations" "" ++ stage.between
      ++ loopSource "body" "    " ++ stage.after := by
  have hstrings (lines : List String) : (lines.map String.toList).map String.ofList = lines := by
    rw [List.map_map]
    exact List.map_id'' (fun _ => String.ofList_toList) lines
  rw [source, sourceChars_eq, ofList_endAll, chars_eq, loopSource_declarations, loopSource_body]
  simp only [List.map_append, hstrings, unlines_append, between, after]

/-- A stage's template is fixed texts around the version and two loops, and its programs are the
    same texts around the version and the lines that they are given. -/
structure Verbatim (stage : Stage) : Prop where
  /-- The source of the template. -/
  source_eq : stage.source = "#version " ++ "\x7b\x7b version \x7d\x7d" ++ stage.before
    ++ loopSource "declarations" "" ++ stage.between ++ loopSource "body" "    " ++ stage.after
  /-- No variable and no tag stands in the fixed texts. -/
  fixed : ∀ text ∈ ["#version ", stage.before, stage.between, stage.after],
    opensTag text.toList = false
  /-- A program, for any version and any lines: each declaration is followed by a newline, and each
      body line also preceded by four spaces. -/
  rendered : ∀ (version : UInt32) (declarations body : List String),
    renderStage stage version declarations body
      = .ok ("#version " ++ toString version.toNat ++ stage.before
        ++ String.join (declarations.map fun line => line ++ "\n") ++ stage.between
        ++ String.join (body.map fun line => "    " ++ line ++ "\n") ++ stage.after)
  /-- A program ends in a bracket and one newline. -/
  ended : ∀ (version : UInt32) (declarations body : List String),
    ∃ text, renderStage stage version declarations body = .ok (text ++ "\x7d" ++ "\n")

/-- No tag begins in a fixed part. -/
theorem fixed_texts (stage : Stage) :
    ∀ text ∈ ["#version ", stage.before, stage.between, stage.after],
      opensTag text.toList = false := by
  have htexts (chars : List (List Char)) :
      (unlines (chars.map String.ofList)).toList = endAll chars := by
    rw [← ofList_endAll, String.toList_ofList]
  -- Parts of a template are short enough to be looked through.
  have hbefore : opensTag (" core\n".toList ++ endAll stage.opening) = false := by
    cases stage <;> decide +kernel
  have hbetween : opensTag (endAll stage.middle) = false := by
    cases stage <;> decide +kernel
  have hafter : opensTag (endAll stage.closing) = false := by
    cases stage <;> decide +kernel
  intro text ht
  simp only [List.mem_cons, List.not_mem_nil, or_false] at ht
  rcases ht with rfl | rfl | rfl | rfl
  · decide
  · rwa [before, String.toList_append, htexts]
  · rwa [between, htexts]
  · rwa [after, htexts]

/-- The last part ends with a brace on a line of its own. -/
theorem after_eq (stage : Stage) : ∃ text, stage.after = text ++ "\x7d" ++ "\n" := by
  refine ⟨unlines (stage.closing.dropLast.map String.ofList), ?_⟩
  rw [after, stage.closing_eq, List.map_append, unlines_append, List.dropLast_concat,
    String.append_assoc]
  rfl

/-- The template and the programs of a stage agree but for what is put in. -/
theorem verbatim (stage : Stage) : stage.Verbatim := by
  have hrendered (version : UInt32) (declarations body : List String) :
      renderStage stage version declarations body
        = .ok ("#version " ++ toString version.toNat ++ stage.before
          ++ String.join (declarations.map fun line => line ++ "\n") ++ stage.between
          ++ String.join (body.map fun line => "    " ++ line ++ "\n") ++ stage.after) := by
    have hdeclarations : String.join (declarations.map fun line => line ++ "\n")
        = unlines declarations := rfl
    have hbody : String.join (body.map fun line => "    " ++ line ++ "\n")
        = unlines (body.map ("    " ++ ·)) := by
      rw [unlines, List.map_map]
      rfl
    have hcore : " core\n" = " core" ++ "\n" := rfl
    rw [renderStage_eq, hdeclarations, hbody]
    simp only [program, unlines_append, unlines_cons, before, between, after, hcore,
      String.append_assoc]
  -- The source, the fixed parts, what is rendered, and its last line.
  refine ⟨?_, stage.fixed_texts, hrendered, fun version declarations body => ?_⟩
  · have hfirst : unlines ["#version \x7b\x7b version \x7d\x7d core"]
        = "#version " ++ "\x7b\x7b version \x7d\x7d" ++ " core\n" := by decide
    simp only [source_eq_unlines, hfirst, before, String.append_assoc]
  · obtain ⟨last, hlast⟩ := stage.after_eq
    have h := hrendered version declarations body
    rw [hlast, ← String.append_assoc, ← String.append_assoc] at h
    exact ⟨_, h⟩

end Stage

end MaterialNet
