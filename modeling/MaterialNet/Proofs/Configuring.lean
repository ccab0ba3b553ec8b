import MaterialNet.Proofs.Alike
import MaterialNet.Proofs.Serving

namespace MaterialNet

/-!
# Networks under other settings

Settings shape what is written, not how.  Walks, the search for cycles and the statements of nodes
do not look at them, and declaring looks at the first texture unit only.

* `Network.walk_withSettings`, … — what is the same under all settings
* `Session.declareSlots_withSettings` — what is the same for one first texture unit
* `Session.assemble_alike`, `compile_alike` — there the same is refused, with one fault
* `Network.Written.blocks` — what a plan writes under two settings
-/

namespace Network

variable (net : Network) (σ : Settings)

/-- Settings are no part of the nodes. -/
theorem get_withSettings (h : Handle) : (net.withSettings σ).get h = net.get h := rfl

/-! ### Walks -/

/-- A walk goes the same way under all settings. -/
theorem walk_withSettings (stack : List Frame) (visited : Visited) (finished : Array Handle) :
    (net.withSettings σ).walk stack visited finished = net.walk stack visited finished := by
  -- The cases are those of the walk: it looks at the network only to look nodes up.
  fun_induction net.walk stack visited finished with
  | case1 => rw [walk]
  | case2 _ _ _ _ ih => rw [walk, ih]
  | case3 _ _ _ _ _ _ hv ih => rw [walk, if_pos hv, ih]
  | case4 _ _ _ _ _ _ hv fault hg =>
    rw [walk, if_neg hv]
    split <;> simp_all [get_withSettings]
  | case5 _ _ _ _ _ _ hv node hg ih =>
    rw [walk, if_neg hv]
    split <;> simp_all [get_withSettings]

/-- The same, for the walk from a root. -/
theorem postOrder_withSettings (root : Handle) (visited : Visited) :
    (net.withSettings σ).postOrder root visited = net.postOrder root visited := by
  simp only [postOrder, get_withSettings, walk_withSettings]

/-! ### Searching for cycles -/

/-- A search for cycles goes the same way under all settings. -/
theorem search_withSettings (stack : List Frame) (opened closed : Visited) :
    (net.withSettings σ).search stack opened closed = net.search stack opened closed := by
  -- As for the walk, case by case.
  fun_induction net.search stack opened closed with
  | case1 => rw [search]
  | case2 _ _ _ _ ih => rw [search, ih]
  | case3 _ _ _ _ _ _ hc ih => rw [search, if_pos hc, ih]
  | case4 _ _ _ _ _ _ hc fault hg =>
    rw [search, if_neg hc]
    split <;> simp_all [get_withSettings]
  | case5 _ _ _ _ _ _ hc node hg ho =>
    rw [search, if_neg hc]
    split <;> simp_all [get_withSettings]
  | case6 _ _ _ _ _ _ hc node hg ho ih =>
    rw [search, if_neg hc]
    split <;> simp_all [get_withSettings]

/-- The same, for the searches from several starts. -/
theorem checkAcyclicFrom_withSettings (closed : Visited) (starts : List Handle) :
    (net.withSettings σ).checkAcyclicFrom closed starts = net.checkAcyclicFrom closed starts := by
  induction starts generalizing closed with
  | nil => rfl
  | cons start rest ih =>
    simp only [checkAcyclicFrom, get_withSettings, search_withSettings, ih]

/-- Settings do not make or hide a cycle. -/
theorem checkAcyclic_withSettings : (net.withSettings σ).checkAcyclic = net.checkAcyclic :=
  net.checkAcyclicFrom_withSettings σ _ _

end Network

namespace Session

open Network

variable (net : Network) (σ : Settings)

/-! ### Actions that do not look at settings -/

/-- The check before every request is the same under all settings. -/
theorem ensureAcyclic_withSettings : ensureAcyclic (net.withSettings σ) = ensureAcyclic net := by
  simp only [ensureAcyclic, checkAcyclic_withSettings]

/-- Statements are the same under all settings. -/
theorem statements_withSettings (hs : List Handle) :
    statements (net.withSettings σ) hs = statements net hs := by
  induction hs with
  | nil => rfl
  | cons h rest ih =>
    rw [statements, ih]
    rfl

/-- So is the text of a visit. -/
theorem visit_withSettings (root : Handle) : visit (net.withSettings σ) root = visit net root := by
  simp only [visit, postOrder_withSettings, statements_withSettings]

/-- So are the lines of a slot, since the comment before them is added later. -/
theorem slotLines_withSettings (sink : Node) (slot : Slot) :
    slotLines (net.withSettings σ) sink slot = slotLines net sink slot := by
  unfold slotLines
  split
  · rfl
  · rw [visit_withSettings]
    rfl

/-! ### Declaring -/

section Declaring

variable {net σ} (hbase : σ.textureUnitBase = net.settings.textureUnitBase)
include hbase

/-- The next texture unit depends on the first one, and on nothing else in the settings. -/
theorem listUniform_withSettings (n : Node) :
    listUniform (net.withSettings σ) n = listUniform net n := by
  have hunit : nextUnit? (net.withSettings σ) = nextUnit? net := by
    funext s
    show (let unit := σ.textureUnitBase.toNat + s.boundTextures.toNat
      if unit < UInt32.size then some (UInt32.ofNat unit) else none) = _
    rw [hbase, nextUnit?]
  simp only [listUniform, hunit]

/-- Declaring a node looks at settings only where a uniform is listed. -/
theorem declareNode_withSettings (h : Handle) :
    declareNode (net.withSettings σ) h = declareNode net h := by
  simp only [declareNode, get_withSettings, listUniform_withSettings hbase]

/-- The same for several nodes. -/
theorem declareNodes_withSettings (hs : List Handle) :
    declareNodes (net.withSettings σ) hs = declareNodes net hs := by
  induction hs with
  | nil => rfl
  | cons h rest ih => rw [declareNodes, declareNode_withSettings hbase, ih, declareNodes]

/-- With one first texture unit, slots are declared in the same way. -/
theorem declareSlots_withSettings (sink : Node) (slots : List Slot) :
    declareSlots (net.withSettings σ) sink slots = declareSlots net sink slots := by
  induction slots with
  | nil => rfl
  | cons slot rest ih =>
    -- A slot is declared by a walk and by declaring what it finds.
    have hslot : declareSlot (net.withSettings σ) sink slot = declareSlot net sink slot := by
      unfold declareSlot declare
      simp only [postOrder_withSettings, declareNodes_withSettings hbase]
    rw [declareSlots, hslot, ih, declareSlots]

end Declaring

/-! ### Two runs -/

/-- From any state, both actions answer and leave one state, or both fail with one fault.  What they
    answer is not compared. -/
def Parallel {α β : Type} (x : Action Session α) (y : Action Session β) : Prop :=
  Action.Alike Eq (fun _ _ => True) x y

namespace Parallel

variable {α β γ : Type}

/-- An action is parallel to itself. -/
theorem refl (x : Action Session α) : Parallel x x :=
  (Action.Alike.refl x).mono fun _ _ _ => trivial

/-- Parallel actions may be put one after the other, whatever they answer. -/
theorem bind {x : Action Session α} {y : Action Session β} {δ : Type} {f : α → Action Session γ}
    {g : β → Action Session δ} (h : Parallel x y) (hf : ∀ a b, Parallel (f a) (g b)) :
    Parallel (x >>= f) (y >>= g) :=
  Action.Alike.bind h fun a b _ => hf a b

/-- After one and the same action, the answer is the same, too. -/
theorem after (x : Action Session α) {f : α → Action Session β} {g : α → Action Session γ}
    (h : ∀ a, Parallel (f a) (g a)) : Parallel (x >>= f) (x >>= g) :=
  (Action.Alike.refl x).bind fun a _ hab => hab ▸ h a

/-- Answers may differ. -/
theorem pure (a : α) (b : β) : Parallel (Pure.pure a) (Pure.pure b) := Action.Alike.pure trivial

/-- What is noted may differ. -/
theorem note (events events' : List Event) :
    Parallel (Action.note events) (Action.note events') :=
  (Action.Alike.note events events').mono fun _ _ _ => trivial

end Parallel

section Runs

variable {net σ}

/-- Whether slots are announced does not show in what a session keeps. -/
theorem planLines_parallel (sink : Node) (steps : List Step) :
    Parallel (planLines net sink steps) (planLines (net.withSettings σ) sink steps) := by
  induction steps with
  | nil => exact .refl _
  | cons step rest ih =>
    -- Only the comment before a slot differs, and it is part of the answer.
    have hstep : Parallel (stepLines net sink step) (stepLines (net.withSettings σ) sink step) := by
      cases step with
      | composite => exact .refl _
      | slot slot =>
        simp only [stepLines, slotLines_withSettings]
        exact .after _ fun lines => .pure _ _
    exact hstep.bind fun _ _ => ih.bind fun _ _ => .pure _ _

/-- Evaluating a node is parallel under all settings. -/
theorem evaluate_parallel (h : Handle) :
    Parallel (evaluate net h) (evaluate (net.withSettings σ) h) := by
  unfold evaluate
  rw [ensureAcyclic_withSettings, get_withSettings]
  refine .after _ fun _ => .after _ fun node => ?_
  -- The plan is written for the sink; any other node is visited, which is the same action.
  split
  · refine .after _ fun s => ?_
    split
    · exact .refl _
    · exact .after _ fun _ => planLines_parallel node _
  · rw [visit_withSettings]
    exact .refl _

variable (hbase : σ.textureUnitBase = net.settings.textureUnitBase)
include hbase

/-- Writing a stage is parallel under settings with one first texture unit. -/
theorem writeStage_parallel (stage : Stage) :
    Parallel (writeStage net stage) (writeStage (net.withSettings σ) stage) := by
  unfold writeStage
  rw [ensureAcyclic_withSettings, get_withSettings]
  refine .after _ fun _ => .after _ fun _ => .after _ fun sink => ?_
  rw [declareSlots_withSettings hbase]
  refine .after _ fun _ => (evaluate_parallel _).bind fun body body' => .after _ fun s => ?_
  exact (Parallel.note _ _).bind fun _ _ => .pure body body'

/-- Assembling a stage is parallel, since neither the version nor a comment makes a template
    fail. -/
theorem assemble_parallel (stage : Stage) :
    Parallel (Session.assemble net stage) (Session.assemble (net.withSettings σ) stage) := by
  refine (writeStage_parallel hbase stage).bind fun body body' => .after _ fun s => ?_
  simp only [renderStage_eq]
  exact .pure _ _

/-- Compiling gives the same manifest. -/
theorem compile_parallel : Action.Alike Eq (fun p p' : Program => p.manifest = p'.manifest)
    (Session.compile net) (Session.compile (net.withSettings σ)) := by
  unfold Session.compile
  rw [ensureAcyclic_withSettings]
  refine Action.Alike.bind (Parallel.refl (ensureAcyclic net)) fun _ _ _ => ?_
  refine Action.Alike.bind (assemble_parallel hbase .vertex) fun vertex vertex' _ => ?_
  refine Action.Alike.bind (assemble_parallel hbase .fragment) fun fragment fragment' _ => ?_
  refine Action.Alike.bind .getState fun s s' hs => ?_
  subst hs
  exact Action.Alike.bind (.note _ _) fun _ _ _ => .pure rfl

end Runs

end Session

namespace Network

variable {net : Network} {σ : Settings} {seen : Set Handle} {out : List Handle}

/-! ### What is written -/

/-- An order of dependence is one under all settings. -/
theorem Visits.withSettings {pending : List Handle} (h : Visits net seen pending out)
    (σ : Settings) : Visits (net.withSettings σ) seen pending out := by
  induction h with
  | nil => exact .nil
  | skip hp _ ih => exact .skip hp ih
  | enter hp hn _ _ ihbelow ih => exact .enter hp hn ihbelow ih

/-- Lines that compute some nodes do so under all settings. -/
theorem Computes.withSettings {lines : List Line} (h : Computes net out lines) (σ : Settings) :
    Computes (net.withSettings σ) out lines := by
  induction h with
  | nil => exact .nil
  | cons hs _ ih => exact .cons hs ih

/-- Some nodes are computed by one list of lines. -/
theorem Computes.unique {lines lines' : List Line} (h : Computes net out lines)
    (h' : Computes net out lines') : lines = lines' := by
  induction h generalizing lines' with
  | nil =>
    cases h'
    rfl
  | cons hs _ ih =>
    cases h' with
    | cons hs' hrest' =>
      obtain ⟨rfl, -⟩ := Prod.mk.inj (Except.ok.inj (hs.symm.trans hs'))
      rw [ih hrest']

/-- The lines of one step of a plan, without the comment that may announce them. -/
structure Block where
  step : Step
  lines : List Line

/-- The lines of a block as settings have them written. -/
def Block.written (annotate : Bool) (b : Block) : List Line :=
  match b.step with
  | .composite => b.lines
  | .slot slot => if annotate then .label slot :: b.lines else b.lines

/-- A written block has its lines and at most a comment. -/
theorem Block.mem_written {annotate : Bool} {b : Block} {l : Line} (h : l ∈ b.written annotate) :
    l ∈ b.lines ∨ ∃ slot, l = .label slot := by
  unfold written at h
  split at h
  · exact .inl h
  · rename_i slot _
    split at h
    · exact (List.mem_cons.1 h).symm.imp_right fun h => ⟨slot, h⟩
    · exact .inl h

/-- The block of a slot comes first, after its comment if there is one. -/
theorem flatMap_written_cons (annotate : Bool) (slot : Slot) (lines : List Line)
    (blocks : List Block) :
    (⟨.slot slot, lines⟩ :: blocks : List Block).flatMap (Block.written annotate)
      = (if annotate then [.label slot] else [])
        ++ (lines ++ blocks.flatMap (Block.written annotate)) := by
  cases annotate <;> rfl

/-- The lines of a block do what its step asks for: a slot without input is passed over, and one
    with a link is set from its producer, after all that is not yet computed. -/
inductive Fills (net : Network) (sink : Node) : Block → Prop where
  | composite : Fills net sink ⟨.composite, [compositeLine]⟩
  | unfed {slot : Slot} (hl : sink.link? slot.index = none) :
      Fills net sink ⟨.slot slot, [.noInput]⟩
  | fed {slot : Slot} {link : Link} {out : List Handle} {body : List Line} {value : Expr}
      (hl : sink.link? slot.index = some link) (hne : ∀ x ∈ out, x ≠ net.sink)
      (hbody : Computes net out body)
      (hvalue : net.readLink (Session.slotConsumer slot) link slot.type = .ok value) :
      Fills net sink ⟨.slot slot, body ++ .assign slot.target value :: decoding slot⟩

/-- Under two settings a plan is written in the same blocks. -/
theorem Written.blocks {sink : Node} {steps : List Step} {lines lines' : List Line}
    (h : Written net sink seen steps lines)
    (h' : Written (net.withSettings σ) sink seen steps lines') (hseen : net.sink ∈ seen) :
    ∃ blocks : List Block, blocks.map Block.step = steps ∧ (∀ b ∈ blocks, Fills net sink b)
      ∧ lines = blocks.flatMap (Block.written net.settings.annotateSlots)
      ∧ lines' = blocks.flatMap (Block.written σ.annotateSlots) := by
  -- Along the plan: both texts are written step by step, and each step gives one block.
  induction h generalizing lines' with
  | nil =>
    cases h'
    exact ⟨[], rfl, nofun, rfl, rfl⟩
  | composite _ ih =>
    obtain ⟨hrest'⟩ := h'
    obtain ⟨blocks, hsteps, hfills, rfl, rfl⟩ := ih ‹_› hseen
    exact ⟨⟨.composite, [compositeLine]⟩ :: blocks, by rw [List.map_cons, hsteps],
      List.forall_mem_cons.2 ⟨.composite, hfills⟩, rfl, rfl⟩
  | @unfed seen slot rest lines hl _ ih =>
    cases h' with
    | unfed _ hrest' =>
      obtain ⟨blocks, hsteps, hfills, rfl, rfl⟩ := ih hrest' hseen
      refine ⟨⟨.slot slot, [.noInput]⟩ :: blocks, by rw [List.map_cons, hsteps],
        List.forall_mem_cons.2 ⟨.unfed hl, hfills⟩, ?_, ?_⟩
      · rw [flatMap_written_cons]
        rfl
      · rw [flatMap_written_cons]
        rfl
    | fed hl' => cases hl.symm.trans hl'
  | @fed seen slot rest link out body lines value hl hvisits hbody hvalue _ ih =>
    cases h' with
    | unfed hl' => cases hl.symm.trans hl'
    | fed hl' hvisits' hbody' hvalue' hrest' =>
      obtain rfl := Option.some.inj (hl.symm.trans hl')
      -- Both texts compute the same nodes, since an order of dependence is determined by its start.
      obtain rfl := (hvisits.withSettings σ).unique hvisits'
      obtain rfl := (hbody.withSettings σ).unique hbody'
      obtain rfl := Except.ok.inj (hvalue.symm.trans hvalue')
      obtain ⟨blocks, hsteps, hfills, rfl, rfl⟩ := ih hrest' (.inl hseen)
      have hne := hvisits.ne_of_seen hseen
      refine ⟨⟨.slot slot, body ++ .assign slot.target value :: decoding slot⟩ :: blocks,
        by rw [List.map_cons, hsteps],
        List.forall_mem_cons.2 ⟨.fed hl hne hbody hvalue, hfills⟩, ?_, ?_⟩
      · rw [flatMap_written_cons, List.append_assoc]
        rfl
      · rw [flatMap_written_cons, List.append_assoc]
        rfl

end Network

end MaterialNet
