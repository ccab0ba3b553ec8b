import MaterialNet.Proofs.Serving

namespace MaterialNet

/-!
# Evaluation by recursion

A session lists the nodes of a walk first and then writes their statements.  The same text comes
from a recursive evaluator, which visits the producers of a node, writes the statement of the node,
and passes on what has been visited so far.  The two agree in every text and in every refusal.

* `Recursive.visit`, `visitAll` — the text of a node, and of several
* `Recursive.step`, `plan`, `sink` — the text of the sink
* `Network.Visits.visitAll_eq` — a visit writes the statements of the nodes that it lists
* `Network.Arises.evaluatesRecursively` — a session writes the sink as the recursive evaluator does
-/

/-! ### Results of sequences -/

namespace Action

variable {σ α β : Type}

/-- The result of two steps is that of the second one, where the first has left off. -/
theorem result_bind (x : Action σ α) (f : α → Action σ β) (s : σ) :
    ((x >>= f).run s).result
      = ((x.run s).result >>= fun a => ((f a).run (x.run s).state).result) := by
  rw [run_bind]
  rcases x.run s with ⟨_ | a, t, events⟩ <;> rfl

/-- So is the state, if the first step has answered. -/
theorem state_bind_of_ok {x : Action σ α} {f : α → Action σ β} {s : σ} {a : α}
    (h : (x.run s).result = .ok a) :
    ((x >>= f).run s).state = ((f a).run (x.run s).state).state := by
  rw [run_bind]
  rcases hx : x.run s with ⟨_ | b, t, events⟩
  · rw [hx] at h
    cases h
  · rw [hx] at h
    obtain rfl := Except.ok.inj h
    rfl

theorem run_lift_bind {r : Except Fault α} {a : α} (h : r = .ok a) (f : α → Action σ β) (s : σ) :
    (lift r >>= f).run s = (f a).run s := by
  rw [h]
  rfl

theorem run_getState_bind (f : σ → Action σ β) (s : σ) : (getState >>= f).run s = (f s).run s := rfl

theorem run_setState_bind (t : σ) (f : Unit → Action σ β) (s : σ) :
    (setState t >>= f).run s = (f ()).run t := rfl

end Action

/-! ### The recursive evaluator -/

namespace Recursive

/-- What has been visited in the end, when `seen` had been visited before. -/
abbrev Grown (seen : Visited) : Type :=
  {later : Visited // ∀ x, seen.contains x = true → later.contains x = true}

/-- A node's own statement, as an ended line if there is one. -/
def ownText (net : Network) (h : Handle) : Except Fault String := do
  let (line?, _) ← net.statementOf h
  match line? with
  | some line => .ok (line.text ++ "\n")
  | none => .ok ""

mutual

/-- Visits a node: nothing is written if it has been visited, and otherwise its producers are
    visited in the order of its inputs and its own statement follows. -/
def visit (net : Network) (seen : Visited) (h : Handle) : Except Fault (String × Grown seen) :=
  if seen.contains h then .ok ("", ⟨seen, fun _ hx => hx⟩)
  else
    match _hg : net.get h with
    | .error fault => .error fault
    | .ok node => do
      let (producers, later) ← visitAll net (seen.insert h) node.producers
      let own ← ownText net h
      .ok (producers ++ own, ⟨later.1, fun x hx => later.2 x (by simp [hx])⟩)
termination_by (net.unseen fun x => seen.contains x, 0)
decreasing_by
  left
  rename_i hv
  refine Network.unseen_lt (fun x hx => ?_) (Network.isSome_node?_of_get _hg)
    (Bool.eq_false_iff.2 hv) ?_
  · simp only [Std.TreeSet.contains_insert, hx, Bool.or_true]
  · simp

/-- Visits several nodes in order. -/
def visitAll (net : Network) (seen : Visited) (hs : List Handle) :
    Except Fault (String × Grown seen) :=
  match hs with
  | [] => .ok ("", ⟨seen, fun _ hx => hx⟩)
  | h :: rest => do
    let (first, later) ← visit net seen h
    let (others, last) ← visitAll net later.1 rest
    .ok (first ++ others, ⟨last.1, fun x hx => last.2 x (later.2 x hx)⟩)
termination_by (net.unseen fun x => seen.contains x, hs.length + 1)
decreasing_by
  · right; simp
  · rcases Nat.lt_or_eq_of_le (Network.unseen_le later.2) with hlt | heq
    · exact .left _ _ hlt
    · rw [heq]; right; simp

end

/-- The comment that announces a slot, if the settings ask for one. -/
def heading (net : Network) (slot : Slot) : String :=
  if net.settings.annotateSlots then "// " ++ slot.label ++ "\n" else ""

/-- The lines that decode a normal. -/
def decoding (slot : Slot) : String :=
  if slot = .normal then
    "NormalOut.rgb = NormalOut.rgb * 2.0 - 1.0;\nNormalOut.rgb = normalize(TBN * NormalOut.rgb);\n"
  else ""

/-- The text that sets the variable of a slot, and what has been visited after it: a comment if
    nothing is connected, and otherwise the visit of the producer and the assignment. -/
def slot (net : Network) (sink : Node) (seen : Visited) (s : Slot) :
    Except Fault (String × Visited) :=
  match sink.link? s.index with
  | none => .ok ("//No valid input found!\n", seen)
  | some link => do
    let (body, later) ← visit net seen link.producer
    let value ← net.readLink ("MaterialOutput." ++ s.label) link s.type
    .ok (body ++ (s.target ++ " = " ++ value.text ++ ";\n") ++ decoding s, later.1)

/-- One step of a plan, and what has been visited after it. -/
def step (net : Network) (sink : Node) (seen : Visited) : Step → Except Fault (String × Visited)
  | .composite =>
    .ok ("MaterialOut = vec4(Metallic, Roughness, AmbientOcclusion, 1.0);\n", seen)
  | .slot s => do
    let (text, later) ← slot net sink seen s
    .ok (heading net s ++ text, later)

/-- The steps of a plan in order. -/
def plan (net : Network) (sink : Node) (seen : Visited) : List Step → Except Fault String
  | [] => .ok ""
  | s :: rest => do
    let (first, later) ← step net sink seen s
    let others ← plan net sink later rest
    .ok (first ++ others)

/-- The text that writes the sink for a stage, when nothing but the sink has been visited. -/
def sink (net : Network) (stage : Stage) : Except Fault String := do
  let node ← net.get net.sink
  plan net node (Std.TreeSet.empty.insert net.sink) (MaterialNet.plan stage)

end Recursive

namespace Network

open Recursive

variable {net : Network} {seen : Set Handle} {pending out : List Handle}

/-! ### Statements in order -/

/-- The statements of several nodes in order, or the first fault among them. -/
def statementLines (net : Network) : List Handle → Except Fault (List Line)
  | [] => .ok []
  | h :: rest => do
    let (line?, _) ← net.statementOf h
    let lines ← net.statementLines rest
    .ok (line?.toList ++ lines)

/-- The lines of two groups of nodes follow one another, or the first fault of both stops them. -/
theorem statementLines_append (hs hs' : List Handle) :
    net.statementLines (hs ++ hs') = (do
      let lines ← net.statementLines hs
      let others ← net.statementLines hs'
      .ok (lines ++ others)) := by
  induction hs with
  | nil =>
    rw [List.nil_append, statementLines]
    rcases net.statementLines hs' with _ | _ <;> rfl
  | cons h rest ih =>
    rw [List.cons_append, statementLines, statementLines, ih]
    rcases net.statementOf h with _ | ⟨line?, events⟩
    · rfl
    · rcases net.statementLines rest with _ | _
      · rfl
      · rcases net.statementLines hs' with _ | _
        · rfl
        · simp [bind, Except.bind]

theorem linesText_append (lines others : List Line) :
    linesText (lines ++ others) = linesText lines ++ linesText others := by
  simp [linesText]

/-- A node that has not been visited is entered. -/
theorem visit_of_node {visited : Visited} {p : Handle} {node : Node}
    (hp : visited.contains p = false) (hn : net.node? p = some node) :
    visit net visited p = (do
      let (producers, later) ← visitAll net (visited.insert p) node.producers
      let own ← ownText net p
      .ok (producers ++ own, ⟨later.1, fun x hx => later.2 x (by simp [hx])⟩)) := by
  rw [visit, if_neg (Bool.eq_false_iff.1 hp)]
  split
  · rename_i hg
    rw [get_eq_ok.2 hn] at hg
    cases hg
  · rename_i hg
    obtain rfl := Except.ok.inj ((get_eq_ok.2 hn).symm.trans hg)
    rfl

theorem visitAll_singleton (visited : Visited) (h : Handle) :
    visitAll net visited [h] = visit net visited h := by
  rw [visitAll]
  rcases visit net visited h with _ | ⟨first, later⟩
  · rfl
  · simp [visitAll, bind, Except.bind]

/-- The text of a node of its own is that of its statement. -/
theorem ownText_eq (h : Handle) :
    ownText net h = linesText <$> net.statementLines [h] := by
  unfold ownText statementLines
  rcases net.statementOf h with _ | ⟨_ | line, events⟩
  · rfl
  · rfl
  · simp [bind, Except.bind, statementLines, linesText, Functor.map, Except.map]

/-! ### What a visit writes -/

/-- Visiting nodes one after the other by recursion writes the statements of the nodes that the
    visit lists, and marks those. -/
theorem Visits.visitAll_eq (h : Visits net seen pending out) {visited : Visited}
    (hseen : visited.members = seen) :
    ∃ later : Grown visited, later.1.members = seen ∪ {x | x ∈ out}
      ∧ visitAll net visited pending
        = (fun lines => (linesText lines, later)) <$> net.statementLines out := by
  induction h generalizing visited with
  | nil =>
    refine ⟨⟨visited, fun _ hx => hx⟩, by simp [hseen], ?_⟩
    rw [visitAll]
    rfl
  | @skip seen p rest out hp _ ih =>
    obtain ⟨later, hlater, heq⟩ := ih hseen
    have hp' : visited.contains p = true := by
      rw [← hseen] at hp
      exact hp
    refine ⟨later, hlater, ?_⟩
    rw [visitAll, visit, if_pos hp']
    show (visitAll net visited rest >>= fun r => _) = _
    rw [heq]
    rcases net.statementLines out with _ | lines
    · rfl
    · simp [bind, Except.bind, Functor.map, Except.map]
  | @enter seen p node rest below out hp hn _ _ ihb ihr =>
    have hp' : visited.contains p = false := by
      rw [← hseen] at hp
      exact Bool.eq_false_iff.2 hp
    have hentered : Visited.members (visited.insert p) = insert p seen := by simp [hseen]
    obtain ⟨inner, hinner, hbelow⟩ := ihb hentered
    obtain ⟨later, hlater, hrest⟩ := ihr hinner
    have hgrown : ∀ x, visited.contains x = true → later.1.contains x = true := fun x hx =>
      later.2 x (inner.2 x (by simp [hx]))
    refine ⟨⟨later.1, hgrown⟩, ?_, ?_⟩
    · rw [hlater, ← seen_enter]
    · have hout : below ++ p :: out = below ++ ([p] ++ out) := rfl
      rw [visitAll, visit_of_node hp' hn, hbelow, ownText_eq, hout, statementLines_append below,
        statementLines_append [p] out]
      -- The first of the three parts that fails is refused with the same fault on both sides.
      rcases net.statementLines below with _ | lines
      · rfl
      rcases net.statementLines [p] with _ | own
      · rfl
      simp only [bind, Except.bind, Functor.map, Except.map]
      rw [hrest]
      rcases net.statementLines out with _ | others
      · rfl
      · simp [Functor.map, Except.map, linesText_append, String.append_assoc]

/-- The recursive visit of one node. -/
theorem Visits.visit_eq {root : Handle} (h : Visits net seen [root] out) {visited : Visited}
    (hseen : visited.members = seen) :
    ∃ later : Grown visited, later.1.members = seen ∪ {x | x ∈ out}
      ∧ visit net visited root
        = (fun lines => (linesText lines, later)) <$> net.statementLines out := by
  rw [← visitAll_singleton]
  exact h.visitAll_eq hseen

end Network

namespace Session

open Network

variable {net : Network} {s : Session}

/-! ### What a session writes -/

/-- Writing statements leaves the session as it is. -/
theorem statements_run (hs : List Handle) (s : Session) :
    ((statements net hs).run s).result = net.statementLines hs
      ∧ ((statements net hs).run s).state = s := by
  induction hs with
  | nil => exact ⟨rfl, rfl⟩
  | cons h rest ih =>
    unfold statements statementLines
    rw [Action.run_bind, Action.run_lift]
    rcases net.statementOf h with fault | ⟨line?, events⟩
    · exact ⟨rfl, rfl⟩
    · obtain ⟨hresult, hstate⟩ := ih
      -- What is noted leaves result and state as they are.
      simp only [Action.run_bind, Action.run_note, Action.run_pure]
      rw [← hresult]
      rcases hrest : (statements net rest).run s with ⟨_ | others, t, more⟩
      · rw [hrest] at hstate
        exact ⟨rfl, hstate⟩
      · rw [hrest] at hstate
        exact ⟨rfl, hstate⟩

/-- Computing a node writes the statements of what a visit lists, and marks that also where one of
    them fails. -/
theorem visit_run (hw : net.WellFormed) {root : Handle} (hroot : (net.node? root).isSome)
    (s : Session) :
    ∃ out evaluated, Visits net s.evaluated.members [root] out
      ∧ evaluated.members = s.evaluated.members ∪ {x | x ∈ out}
      ∧ ((visit net root).run s).result = net.statementLines out
      ∧ ((visit net root).run s).state = { s with evaluated } := by
  obtain ⟨found, evaluated, hwalk⟩ := exists_postOrder hw hroot s.evaluated
  obtain ⟨hvisits, hmembers⟩ := visits_of_postOrder hwalk
  -- The walk marks the nodes before the first statement is made.
  have hrun : ∃ events, (visit net root).run s
      = ⟨((statements net found.toList).run { s with evaluated }).result,
        ((statements net found.toList).run { s with evaluated }).state, events⟩ := by
    unfold visit
    simp only [Action.run_bind, Action.run_getState, Action.run_lift, hwalk, Action.run_setState]
    exact ⟨_, rfl⟩
  obtain ⟨events, hrun⟩ := hrun
  refine ⟨found.toList, evaluated, hvisits, hmembers, ?_, ?_⟩
  · rw [hrun, (statements_run _ _).1]
  · rw [hrun, (statements_run _ _).2]

/-! ### The lines of the sink -/

theorem linesText_announcement (slot : Slot) :
    linesText (net.announcement slot) = Recursive.heading net slot := by
  unfold announcement Recursive.heading
  split
  · simp [linesText, Line.text, String.append_assoc]
  · rfl

theorem linesText_decoding (slot : Slot) :
    linesText (decoding slot) = Recursive.decoding slot := by
  cases slot <;> decide +kernel

theorem linesText_compositeLine :
    linesText [compositeLine]
      = "MaterialOut = vec4(Metallic, Roughness, AmbientOcclusion, 1.0);\n" := by
  decide +kernel

variable {sink : Node} (hw : net.WellFormed) (hsink : net.node? net.sink = some sink)
include hw hsink

/-- A slot is refused or written as the recursive evaluator does it. -/
theorem slotLines_run (slot : Slot) {seen : Visited} (hseen : s.evaluated.members = seen.members) :
    (∃ fault, ((slotLines net sink slot).run s).result = .error fault
        ∧ Recursive.slot net sink seen slot = .error fault)
      ∨ ∃ lines later evaluated, ((slotLines net sink slot).run s).result = .ok lines
        ∧ ((slotLines net sink slot).run s).state = { s with evaluated }
        ∧ evaluated.members = later.members
        ∧ Recursive.slot net sink seen slot = .ok (linesText lines, later) := by
  unfold slotLines Recursive.slot
  cases hl : sink.link? slot.index with
  | none =>
    have htext : linesText [.noInput] = "//No valid input found!\n" := by decide +kernel
    exact .inr ⟨[.noInput], seen, s.evaluated, rfl, rfl, hseen, by rw [htext]⟩
  | some link =>
    have hlive := hw.isSome_of_reads (reads_of_link? hsink hl)
    obtain ⟨out, evaluated, hvisits, hmembers, hresult, hstate⟩ := visit_run hw hlive s
    obtain ⟨later, hlater, hvisit⟩ := hvisits.visit_eq hseen.symm
    simp only [hvisit, Action.result_bind, hresult]
    -- Either the statements fail, or the reading of the link, or none of the two.
    rcases hlines : net.statementLines out with fault | body
    · exact .inl ⟨fault, rfl, rfl⟩
    have hconsumer : slotConsumer slot = "MaterialOutput." ++ slot.label := rfl
    rcases hvalue : net.readLink (slotConsumer slot) link slot.type with fault | value
    · rw [hconsumer] at hvalue
      exact .inl ⟨fault, rfl, by rw [hvalue]; rfl⟩
    · have htext : linesText (body ++ .assign slot.target value :: decoding slot)
          = linesText body ++ (slot.target ++ " = " ++ value.text ++ ";\n")
            ++ Recursive.decoding slot := by
        rw [linesText_append, ← List.singleton_append, linesText_append, linesText_decoding]
        simp [linesText, Line.text, String.append_assoc]
      rw [hconsumer] at hvalue
      refine .inr ⟨body ++ .assign slot.target value :: decoding slot, later.1, evaluated, rfl, ?_,
        by rw [hmembers, hlater], ?_⟩
      · rw [Action.state_bind_of_ok (hresult.trans hlines), hstate, Action.run_bind,
          Action.run_lift]
        rfl
      · rw [hvalue, htext]
        rfl

/-- A step of a plan is refused or written as the recursive evaluator does it. -/
theorem stepLines_run (step : Step) {seen : Visited}
    (hseen : s.evaluated.members = seen.members) :
    (∃ fault, ((stepLines net sink step).run s).result = .error fault
        ∧ Recursive.step net sink seen step = .error fault)
      ∨ ∃ lines later evaluated, ((stepLines net sink step).run s).result = .ok lines
        ∧ ((stepLines net sink step).run s).state = { s with evaluated }
        ∧ evaluated.members = later.members
        ∧ Recursive.step net sink seen step = .ok (linesText lines, later) := by
  cases step with
  | composite =>
    refine .inr ⟨[compositeLine], seen, s.evaluated, rfl, rfl, hseen, ?_⟩
    rw [linesText_compositeLine, Recursive.step]
  | slot slot =>
    simp only [stepLines, announced_eq, Recursive.step, Action.result_bind]
    -- The announcement comes in front of the lines, if there are any.
    rcases slotLines_run hw hsink slot hseen with
      ⟨fault, hresult, htext⟩ | ⟨lines, later, evaluated, hresult, hstate, hmembers, htext⟩
    · rw [hresult, htext]
      exact .inl ⟨fault, rfl, rfl⟩
    · rw [hresult, htext, Action.state_bind_of_ok hresult, hstate]
      refine .inr ⟨_, later, evaluated, rfl, rfl, hmembers, ?_⟩
      rw [linesText_append, linesText_announcement]
      rfl

/-- The steps of a plan are refused or written as the recursive evaluator does it. -/
theorem planLines_run (steps : List Step) {seen : Visited}
    (hseen : s.evaluated.members = seen.members) :
    linesText <$> ((planLines net sink steps).run s).result
      = Recursive.plan net sink seen steps := by
  -- The marked nodes are those that the evaluator has seen, before each step of the plan.
  induction steps generalizing s seen with
  | nil => rfl
  | cons step rest ih =>
    simp only [planLines, Recursive.plan, Action.result_bind]
    rcases stepLines_run hw hsink step hseen with
      ⟨fault, hresult, htext⟩ | ⟨lines, later, evaluated, hresult, hstate, hmembers, htext⟩
    · rw [hresult, htext]
      rfl
    · rw [hresult, htext, hstate]
      have hrest := ih (s := { s with evaluated }) hmembers
      simp only [bind, Except.bind]
      rw [← hrest]
      rcases ((planLines net sink rest).run { s with evaluated }).result with fault | others
      · rfl
      · show Except.ok (linesText (lines ++ others)) = .ok (linesText lines ++ linesText others)
        rw [linesText_append]

omit hsink in
/-- On a network without cycles, a node is computed right away. -/
theorem evaluate_run_node (hacyclic : net.Acyclic) {h : Handle} {node : Node}
    (hn : net.node? h = some node) (hne : h ≠ net.sink) (s : Session) :
    ((evaluate net h).run s).result = ((visit net h).run { s with acyclic := true }).result
      ∧ ((evaluate net h).run s).state = ((visit net h).run { s with acyclic := true }).state := by
  obtain ⟨hensure, hstate⟩ := ensureAcyclic_gives_of_acyclic (s := s) hw hacyclic
  have hnode : node.isSink = false := hw.isSink_eq_false hn hne
  unfold evaluate
  rw [Action.result_bind, Action.state_bind_of_ok hensure, hensure, hstate,
    Action.run_lift_bind (get_eq_ok.2 hn), hnode]
  exact ⟨rfl, rfl⟩

/-- On a network without cycles, the plan of a stage is carried out once. -/
theorem evaluate_run_sink (hacyclic : net.Acyclic) (s : Session) :
    ((evaluate net net.sink).run s).result
        = (if s.evaluated.contains net.sink then .ok []
          else ((planLines net sink (plan s.stage)).run
            { s with acyclic := true, evaluated := s.evaluated.insert net.sink }).result)
      ∧ ((evaluate net net.sink).run s).state
        = (if s.evaluated.contains net.sink then { s with acyclic := true }
          else ((planLines net sink (plan s.stage)).run
            { s with acyclic := true, evaluated := s.evaluated.insert net.sink }).state) := by
  obtain ⟨hensure, hstate⟩ := ensureAcyclic_gives_of_acyclic (s := s) hw hacyclic
  have hnode : sink.isSink = true := (hw.isSink_iff hsink).2 rfl
  unfold evaluate
  rw [Action.result_bind, Action.state_bind_of_ok hensure, hensure, hstate,
    Action.run_lift_bind (get_eq_ok.2 hsink), hnode, if_pos rfl, Action.run_getState_bind]
  split <;> exact ⟨rfl, rfl⟩

end Session

namespace Network

/-- Whatever a session has been asked before, as long as nothing has been computed in its stage it
    writes the sink of a network without cycles as the recursive evaluator does: it answers with the
    same text, or refuses with the same fault. -/
theorem Arises.evaluatesRecursively {net : Network} (h : net.Arises) (hacyclic : net.Acyclic)
    {s : Session} (hs : ∀ x, s.evaluated.contains x = false) :
    ((Session.serve net (.evaluate net.sink)).run s).result
      = .text <$> Recursive.sink net s.stage := by
  have hw := h.wellFormed
  obtain ⟨sink, hsink, -⟩ := hw.sink_live
  obtain ⟨hensure, hstate⟩ := Session.ensureAcyclic_gives_of_acyclic (s := s) hw hacyclic
  have hget : net.get net.sink = .ok sink := get_eq_ok.2 hsink
  have hsink' : sink.isSink = true := (hw.isSink_iff hsink).2 rfl
  -- The sink is marked first, in the session as in the recursive evaluator.
  have hmembers : Visited.members (s.evaluated.insert net.sink)
      = Visited.members (Std.TreeSet.empty.insert net.sink) := by
    have hnone : s.evaluated.members = ∅ := by
      ext x
      simp [Visited.mem_members, hs x]
    rw [Visited.members_insert, Visited.members_insert, hnone, Visited.members_empty]
  have hplan := Session.planLines_run hw hsink (plan s.stage)
    (s := { s with acyclic := true, evaluated := s.evaluated.insert net.sink }) hmembers
  have hevaluate := (Session.evaluate_run_sink hw hsink hacyclic s).1
  rw [hs, if_neg Bool.false_ne_true] at hevaluate
  rw [Session.serve, Action.result_bind, hevaluate, Recursive.sink, hget]
  show _ = Reply.text <$> Recursive.plan net sink (Std.TreeSet.empty.insert net.sink) (plan s.stage)
  rw [← hplan]
  rcases ((Session.planLines net sink (plan s.stage)).run _).result with fault | lines <;> rfl

/-- A constant that feeds a slot and, through a function of vectors, another; the function has no
    promotion for it. -/
def unpromoted : Network :=
  (new { annotateSlots := true }).run
    [.add ⟨"shine", .inMain, .constant (.float .one), []⟩,
      .add ⟨"gloss", .inMain, .unary .abs .vec3, []⟩,
      .connect ⟨3, 1⟩ ⟨⟨2, 1⟩, .value, 0⟩,
      .connectSlot .roughness ⟨2, 1⟩ .value,
      .connectSlot .albedo ⟨3, 1⟩ .value,
      .connectSlot .vertexOffset ⟨2, 1⟩ .value]

theorem acyclic_unpromoted : unpromoted.Acyclic := by
  have hranked : unpromoted.ranked (fun h => if h.place = 1 then 4 else h.place) = true := by
    decide +kernel
  exact acyclic_of_ranked hranked

/-- A network whose fragment stage cannot be written: both ways it fails alike. -/
theorem evaluatesRecursively_unpromoted : unpromoted.Arises ∧ unpromoted.Acyclic
    ∧ (∀ x, (Session.fresh.enterStage .fragment).evaluated.contains x = false)
    ∧ ((Session.serve unpromoted (.evaluate unpromoted.sink)).run .fresh).result
      = .text <$> Recursive.sink unpromoted .vertex
    ∧ ((Session.serve unpromoted (.evaluate unpromoted.sink)).run
        (Session.fresh.enterStage .fragment)).result
      = .text <$> Recursive.sink unpromoted .fragment := by
  have h : unpromoted.Arises := (Arises.new { annotateSlots := true }).run (by decide +kernel)
  have hnone : ∀ x, (Std.TreeSet.empty : Visited).contains x = false := by simp
  exact ⟨h, acyclic_unpromoted, hnone, h.evaluatesRecursively acyclic_unpromoted hnone,
    h.evaluatesRecursively acyclic_unpromoted hnone⟩

end Network

end MaterialNet
