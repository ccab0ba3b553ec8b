import MaterialNet.Proofs.Framing

namespace MaterialNet

/-!
# Rendering does not fail

A template fails to render only where a name has no meaning or a loop has no list to run through.

* `Template.fills` — all names of a template are among the given ones
* `Template.exists_render` — such a template renders
* `exists_renderStage` — the stages' own templates always do
-/

namespace Template

/-! ### Names of a template -/

/-- The name of a variable is among the given ones. -/
def Segment.fills (names : List String) : Segment → Bool
  | .text _ => true
  | .variable name => names.contains name

/-- The names of a piece are among the given ones, and so is the list of a loop. -/
def Piece.fills (names lists : List String) : Piece → Bool
  | .segment s => s.fills names
  | .loop item items body => lists.contains items && body.all (Segment.fills (item :: names))

/-- The names of a template are among the given ones, and so are the lists of its loops. -/
def fills (template : Template) (names lists : List String) : Bool :=
  template.all (Piece.fills names lists)

/-! ### Rendering -/

variable {context : Context} {names lists : List String}

/-- Steps over a list succeed if all of them do. -/
theorem exists_mapM {ε α β : Type} {f : α → Except ε β} {l : List α}
    (h : ∀ a ∈ l, ∃ b, f a = .ok b) : ∃ out, l.mapM f = .ok out := by
  cases hr : l.mapM f with
  | ok out => exact ⟨out, rfl⟩
  | error e =>
    obtain ⟨a, ha, hf⟩ := mapM_eq_error hr
    obtain ⟨b, hb⟩ := h a ha
    rw [hb] at hf
    cases hf

/-- A segment whose name is in the context is filled in. -/
theorem Segment.exists_render (hnames : ∀ name ∈ names, (context.lookup name).isSome)
    {s : Segment} (h : s.fills names = true) : ∃ text, s.render context = .ok text := by
  match s, h with
  | .text s, _ => exact ⟨s, rfl⟩
  | .variable name, h =>
    have hname : name ∈ names := by simpa [Segment.fills] using h
    obtain ⟨value, hv⟩ := Option.isSome_iff_exists.1 (hnames name hname)
    exact ⟨value.print, by simp [Segment.render, Context.text, hv]⟩

/-- So is a piece, if its lists are there, too. -/
theorem Piece.exists_render (hnames : ∀ name ∈ names, (context.lookup name).isSome)
    (hlists : ∀ name ∈ lists, ∃ values, context.items name = .ok values) {p : Piece}
    (h : p.fills names lists = true) : ∃ text, p.render context = .ok text := by
  cases p with
  | segment s => exact Segment.exists_render hnames h
  | loop item items body =>
    simp only [Piece.fills, Bool.and_eq_true, List.all_eq_true, List.contains_iff_mem] at h
    obtain ⟨values, hv⟩ := hlists items h.1
    -- Inside the loop its item has a meaning, too.
    have hbody (value : Value) :
        ∃ text, renderSegments ((item, value) :: context) body = .ok text := by
      have hnames' : ∀ name ∈ item :: names,
          (List.lookup name ((item, value) :: context)).isSome := by
        intro name hname
        rw [List.lookup_cons]
        split
        · rfl
        · rename_i hne
          refine hnames name ((List.mem_cons.1 hname).resolve_left ?_)
          simpa using hne
      obtain ⟨texts, ht⟩ := exists_mapM fun s hs => Segment.exists_render hnames' (h.2 s hs)
      exact ⟨_, map_ok_iff.2 ⟨texts, ht, rfl⟩⟩
    obtain ⟨texts, ht⟩ := exists_mapM (l := values) fun value _ => hbody value
    exact ⟨_, bind_ok_iff.2 ⟨values, hv, map_ok_iff.2 ⟨texts, ht, rfl⟩⟩⟩

/-- A template renders if all its names have a meaning and all its loops a list. -/
theorem exists_render (hnames : ∀ name ∈ names, (context.lookup name).isSome)
    (hlists : ∀ name ∈ lists, ∃ values, context.items name = .ok values) {template : Template}
    (h : template.fills names lists = true) : ∃ text, template.render context = .ok text := by
  obtain ⟨texts, ht⟩ := exists_mapM fun p hp =>
    Piece.exists_render hnames hlists (List.all_eq_true.1 h p hp)
  exact ⟨_, map_ok_iff.2 ⟨texts, ht, rfl⟩⟩

end Template

/-! ### The stages -/

/-- The templates of the stages use the names that rendering a stage gives a meaning. -/
theorem Stage.fills_template (stage : Stage) :
    ∃ template, stage.template? = some template
      ∧ template.fills ["version"] ["declarations", "body"] = true :=
  ⟨stage.frame, stage.template?_eq, by cases stage <;> decide +kernel⟩

/-- Rendering a stage never fails. -/
theorem exists_renderStage (stage : Stage) (version : UInt32) (declarations body : List String) :
    ∃ text, renderStage stage version declarations body = .ok text := by
  obtain ⟨template, ht, hfills⟩ := stage.fills_template
  -- The context holds the version and the two lists of lines, and the templates ask for no more.
  have hnames : ∀ name ∈ ["version"],
      ((stageContext version declarations body).lookup name).isSome := by
    intro name hname
    rw [List.mem_singleton.1 hname]
    rfl
  have hlists : ∀ name ∈ ["declarations", "body"],
      ∃ values, Template.Context.items (stageContext version declarations body) name
        = .ok values := by
    intro name hname
    rcases List.mem_pair.1 hname with rfl | rfl
    · exact ⟨declarations.map .text, rfl⟩
    · exact ⟨body.map .text, rfl⟩
  obtain ⟨text, hr⟩ := Template.exists_render hnames hlists hfills
  exact ⟨endLine text, by simp [renderStage, ht, hr]⟩

end MaterialNet
