import MaterialNet.Proofs.Emission
import MaterialNet.Proofs.Memo
import MaterialNet.Proofs.Presentation

namespace MaterialNet

/-!
# Computing a network bit by bit

A session may be asked to compute one node after the other, and the sink among them.  Every answer
has only what is new, and together the answers have the statement of every node that was asked for
or is needed, once and after those of the nodes that it reads.

* `Network.Covers` — what a request covers
* `Session.Emitted` — the lines that a session has given out in its stage
* `Session.Emitted.evaluate`, `Session.Emitted.serveAll` — what one request adds to them, and what
  several add
* `Network.Incremental` — what the answers have in the end
* `Network.Arises.incremental` — the answers of every session in which nothing has been computed
-/

/-! ### Lines with one text -/

/-- Lines that are read alike set one variable, and declare it or not alike. -/
theorem Line.Legible.same {l l' : Line} (h : l.Legible) (h' : l'.Legible) (ht : l.text = l'.text) :
    l.target? = l'.target? ∧ l.declares? = l'.declares? := by
  have hreads := h.reads
  rw [ht] at hreads
  have hsame := hreads.unique h'.reads
  cases l <;> cases l' <;> simp_all [Line.statement?, Line.target?, Line.declares?]

/-- A line has a text. -/
theorem Line.text_ne_empty (l : Line) : l.text ≠ "" := by
  cases l <;> simp [Line.text, String.append_eq_empty_iff]

namespace Network

variable {net : Network} {seen : Set Handle} {out out' pending : List Handle}
  {lines lines' : List Line}

/-! ### Statements of several nodes -/

/-- The statement of a node, if it has one. -/
def ownLine? (net : Network) (x : Handle) : Option Line :=
  match net.statementOf x with
  | .ok (line?, _) => line?
  | .error _ => none

/-- The line of a node is that of its statement, if it has one. -/
theorem ownLine?_eq_some {x : Handle} {l : Line} :
    net.ownLine? x = some l ↔ ∃ events, net.statementOf x = .ok (some l, events) := by
  unfold ownLine?
  split
  · rename_i line? events hs
    rw [hs]
    simp
  · rename_i hs
    rw [hs]
    simp

/-- Lines that compute some nodes are the lines of these nodes. -/
theorem Computes.eq_filterMap (h : Computes net out lines) :
    lines = out.filterMap net.ownLine? := by
  induction h with
  | nil => rfl
  | @cons x line? events rest lines hs _ ih =>
    have hown : net.ownLine? x = line? := by rw [ownLine?, hs]
    rw [ih]
    cases line? with
    | none => rw [List.filterMap_cons_none hown, Option.toList_none, List.nil_append]
    | some l => rw [List.filterMap_cons_some hown, Option.toList_some, List.singleton_append]

/-- A node that comes before another has its statement before that of the other. -/
theorem Computes.sublist (h : Computes net out lines) {before after : List Handle} {q x : Handle}
    (hout : out = before ++ x :: after) (hq : q ∈ before) {l l' : Line}
    (hl' : net.ownLine? q = some l') (hl : net.ownLine? x = some l) :
    [l', l].Sublist lines := by
  rw [h.eq_filterMap, hout, List.filterMap_append]
  have hfirst : l' ∈ before.filterMap net.ownLine? := List.mem_filterMap.2 ⟨q, hq, hl'⟩
  have hsecond : l ∈ (x :: after).filterMap net.ownLine? :=
    List.mem_filterMap.2 ⟨x, List.mem_cons_self, hl⟩
  exact (List.singleton_sublist.2 hfirst).append (List.singleton_sublist.2 hsecond)

section WellFormed

variable (hw : net.WellFormed)
include hw

/-- The sink has no statement of its own. -/
theorem ne_sink_of_ownLine? {x : Handle} {l : Line} (hl : net.ownLine? x = some l) :
    x ≠ net.sink := by
  rintro rfl
  obtain ⟨events, hs⟩ := ownLine?_eq_some.1 hl
  obtain ⟨n, inputs, hn, hstatement, -⟩ := statementOf_eq_ok hs
  have hkind : n.kind = .sink := of_decide_eq_true ((hw.isSink_iff hn).2 rfl)
  simp [Node.statement, hkind] at hstatement

/-- Distinct nodes have statements with distinct texts. -/
theorem eq_of_text_eq {x y : Handle} {l l' : Line} (hl : net.ownLine? x = some l)
    (hl' : net.ownLine? y = some l') (ht : l.text = l'.text) : x = y := by
  have hx := ne_sink_of_ownLine? hw hl
  have hy := ne_sink_of_ownLine? hw hl'
  obtain ⟨events, hs⟩ := ownLine?_eq_some.1 hl
  obtain ⟨events', hs'⟩ := ownLine?_eq_some.1 hl'
  obtain ⟨htarget, hdeclares⟩ := (legible_of_statementOf hw hx hs).same
    (legible_of_statementOf hw hy hs') ht
  obtain ⟨n, hn, hn', -, hd, -⟩ := reads_of_statementOf hw hx hs
  obtain ⟨m, hm, hm', -, hd', -⟩ := reads_of_statementOf hw hy hs'
  have hname : n.variableName = m.variableName := by
    rw [hn', hm'] at htarget
    exact Option.some.inj htarget
  rw [hd, hd'] at hdeclares
  -- Either both are textures, with the names of their samples, or neither is one.
  by_cases hk : n.kind = .texture <;> by_cases hk' : m.kind = .texture
  · rw [Node.variableName_of_texture hk, Node.variableName_of_texture hk'] at hname
    exact hw.handle_unique hn hm ((String.append_left_inj _).1 hname)
  · simp [hk, hk'] at hdeclares
  · simp [hk, hk'] at hdeclares
  · rw [Node.variableName_of_ne_texture hk, Node.variableName_of_ne_texture hk'] at hname
    exact hw.handle_unique hn hm hname

/-- Nodes that are listed once have one statement with its text each. -/
theorem Computes.nodup_texts (h : Computes net out lines) (hout : out.Nodup) :
    (lines.map Line.text).Nodup := by
  rw [h.eq_filterMap, List.map_filterMap]
  refine hout.filterMap fun x y text hx hy => ?_
  obtain ⟨l, hl, rfl⟩ := Option.map_eq_some_iff.1 hx
  obtain ⟨l', hl', ht⟩ := Option.map_eq_some_iff.1 hy
  exact eq_of_text_eq hw hl hl' ht.symm

/-- Where the seen nodes are closed under dependence but for the sink, a visit lists exactly what
    the nodes to be visited depend on and what has not been seen. -/
theorem Saturated.mem_iff (hs : net.Saturated seen) (h : Visits net seen pending out)
    (hp : ∀ p ∈ pending, p ≠ net.sink) {x : Handle} :
    x ∈ seen ∨ x ∈ out ↔ x ∈ seen ∨ ∃ p ∈ pending, net.DependsOn p x := by
  constructor
  · exact Or.imp_right (h.sound hw x)
  · rintro (hx | ⟨p, hmem, hd⟩)
    · exact .inl hx
    · have hsaturated := hs.visits hw h
      exact hsaturated.mem_of_dependsOn hw (h.covers p hmem) (hp p hmem) hd

/-- The lines of a plan that belong to the sink do not depend on what has been computed before. -/
theorem Written.own_unique {sink : Node} {seen' : Set Handle} {steps : List Step}
    (h : Written net sink seen steps lines) (h' : Written net sink seen' steps lines')
    (hseen : net.sink ∈ seen) (hseen' : net.sink ∈ seen') :
    lines.filter (!Line.setsNode ·) = lines'.filter (!Line.setsNode ·) := by
  -- The lines of nodes are not the own lines of a plan.
  have hnone {seen : Set Handle} {p : List Handle} {out : List Handle} {body : List Line}
      (hv : Visits net seen p out) (hs : net.sink ∈ seen) (hc : Computes net out body) :
      body.filter (!Line.setsNode ·) = [] := by
    refine List.filter_eq_nil_iff.2 fun l hl => ?_
    have hkept := hc.setsNode hw fun x hx heq => hv.nodup.2 x hx (heq ▸ hs)
    simp [List.filter_eq_self.1 hkept l hl]
  -- Both plans take the same steps, and each step has its own lines.
  induction h generalizing seen' lines' with
  | nil =>
    cases h'
    rfl
  | composite _ ih =>
    cases h' with
    | composite hrest' => simp only [List.filter_cons, ih hrest' hseen hseen']
  | unfed hl _ ih =>
    cases h' with
    | unfed _ hrest' =>
      simp only [List.filter_append, List.filter_cons, ih hrest' hseen hseen']
    | fed hl' =>
      rw [hl] at hl'
      cases hl'
  | fed hl hvisits hbody hvalue _ ih =>
    cases h' with
    | unfed hl' =>
      rw [hl] at hl'
      cases hl'
    | fed hl' hvisits' hbody' hvalue' hrest' =>
      obtain rfl := Option.some.inj (hl.symm.trans hl')
      obtain rfl := Except.ok.inj (hvalue.symm.trans hvalue')
      simp only [List.filter_append, List.filter_cons, hnone hvisits hseen hbody,
        hnone hvisits' hseen' hbody', ih hrest' (.inl hseen) (.inl hseen')]

end WellFormed

/-! ### Statements in the order of dependence -/

/-- What comes after nodes in order is in order where each node reads one of those or one before
    it. -/
theorem ordered_append
    (hout : ∀ before x after, out = before ++ x :: after → ∀ q, net.Reads x q → q ∈ before)
    (hout' : ∀ before x after, out' = before ++ x :: after →
      ∀ q, net.Reads x q → q ∈ out ∨ q ∈ before) :
    ∀ before x after, out ++ out' = before ++ x :: after → ∀ q, net.Reads x q → q ∈ before := by
  intro before x after heq q hq
  -- The node stands in the second list or in the first.
  rcases List.append_eq_append_iff.1 heq with ⟨mid, rfl, hmid⟩ | ⟨mid, hmid, hrest⟩
  · exact List.mem_append.2 (hout' mid x after hmid q hq)
  · cases mid with
    | nil =>
      rw [List.append_nil] at hmid
      rcases hout' [] x after hrest.symm q hq with hmem | hmem
      · rwa [hmid] at hmem
      · cases hmem
    | cons y mid =>
      obtain ⟨rfl, -⟩ := List.cons.inj hrest
      exact hout before x mid hmid q hq

/-- The nodes of a set apart from the sink, each after all that it reads, and their statements in
    this order. -/
structure Stated (net : Network) (members : Set Handle) (out : List Handle) (lines : List Line) :
    Prop where
  nodup : out.Nodup
  mem_iff : ∀ x, x ∈ out ↔ x ∈ members ∧ x ≠ net.sink
  ordered : ∀ before x after, out = before ++ x :: after → ∀ q, net.Reads x q → q ∈ before
  computes : Computes net out lines

/-- Nothing is stated at first. -/
theorem stated_empty : net.Stated ∅ [] [] where
  nodup := .nil
  mem_iff x := by simp
  ordered before x after hout := by simp at hout
  computes := .nil

section Stated

variable {members : Set Handle} (h : net.Stated members out lines)
include h

/-- What has been stated has been stated down to the last producer. -/
theorem Stated.saturated : net.Saturated members := by
  intro x hx hne q hq
  obtain ⟨before, after, hout⟩ := List.append_of_mem ((h.mem_iff x).2 ⟨hx, hne⟩)
  have hmem : q ∈ out := by
    rw [hout]
    exact List.mem_append_left _ (h.ordered before x after hout q hq)
  exact ((h.mem_iff q).1 hmem).1

/-- A visit that starts from the nodes of the set adds its own to them; whether the sink has been
    seen does not matter. -/
theorem Stated.visits (hw : net.WellFormed) (hacyclic : net.Acyclic) {members' : Set Handle}
    (hvisits : Visits net seen pending out') (hseen : ∀ y, y ≠ net.sink → (y ∈ seen ↔ y ∈ members))
    (hnew : ∀ y ∈ out', y ≠ net.sink)
    (hmembers : ∀ y, y ≠ net.sink → (y ∈ members' ↔ y ∈ members ∨ y ∈ out'))
    (hcomputes : Computes net out' lines') :
    net.Stated members' (out ++ out') (lines ++ lines') where
  nodup := by
    refine List.nodup_append.2 ⟨h.nodup, hvisits.nodup.1, ?_⟩
    rintro y hy _ hy' rfl
    exact hvisits.nodup.2 y hy' ((hseen y (hnew y hy')).2 ((h.mem_iff y).1 hy).1)
  mem_iff y := by
    rw [List.mem_append, h.mem_iff]
    constructor
    · rintro (⟨hy, hne⟩ | hy)
      · exact ⟨(hmembers y hne).2 (.inl hy), hne⟩
      · exact ⟨(hmembers y (hnew y hy)).2 (.inr hy), hnew y hy⟩
    · rintro ⟨hy, hne⟩
      exact ((hmembers y hne).1 hy).imp_left fun hy => ⟨hy, hne⟩
  ordered := by
    refine ordered_append h.ordered fun before y after hy q hq => ?_
    refine (hvisits.ordered hw hacyclic before y after hy q hq).imp_left fun hmem => ?_
    have hne := hw.ne_sink_of_reads hq
    exact (h.mem_iff q).2 ⟨(hseen q hne).1 hmem, hne⟩
  computes := h.computes.append hcomputes

end Stated

/-- A request to compute `x` covers `y`, when the session is in the given stage: for the sink that
    is the sink and what feeds the stage, for another node what it depends on. -/
def Covers (net : Network) (stage : Stage) (x y : Handle) : Prop :=
  if x = net.sink then y = net.sink ∨ net.FeedsStage stage y else net.DependsOn x y

end Network

namespace Session

open Network

variable {net : Network} {s s' : Session} {out : List Handle} {lines more : List Line}

/-! ### What a session has given out -/

/-- The lines that a session has given out in its stage, with the nodes whose statements are among
    them in order. -/
structure Emitted (net : Network) (s : Session) (out : List Handle) (lines : List Line) : Prop where
  stated : net.Stated s.evaluated.members out (lines.filter Line.setsNode)
  /-- Once the sink has been written, everything that feeds the stage has been computed, and the
      other lines are those of the sink. -/
  fed : net.sink ∈ s.evaluated.members → (∀ y, net.FeedsStage s.stage y → y ∈ out)
    ∧ ∃ sink seen body, net.node? net.sink = some sink ∧ net.sink ∈ seen
      ∧ Written net sink seen (plan s.stage) body
      ∧ lines.filter (!Line.setsNode ·) = body.filter (!Line.setsNode ·)
  unfed : net.sink ∉ s.evaluated.members → lines.filter (!Line.setsNode ·) = []
  legible : ∀ l ∈ lines, l.Legible

/-- At the start of a stage nothing has been given out. -/
theorem emitted_nil (h : ∀ x, s.evaluated.contains x = false) : Emitted net s [] [] := by
  have hnone : s.evaluated.members = ∅ := by
    ext x
    simp [Visited.mem_members, h x]
  refine ⟨?_, fun hsink => ?_, fun _ => rfl, nofun⟩
  · rw [hnone]
    exact stated_empty
  · rw [hnone] at hsink
    cases hsink

/-- The steps of a plan mark what their slots need. -/
theorem planLines_marks {sink : Node} {steps : List Step}
    (h : (planLines net sink steps).Gives s lines s') :
    ∃ out, Visits net s.evaluated.members (slotProducers sink (steps.filterMap Step.slot?)) out
      ∧ s'.evaluated.members = s.evaluated.members ∪ {x | x ∈ out} ∧ s'.stage = s.stage := by
  -- Step by step: a slot marks what its producer still needs, the closing line nothing.
  induction steps generalizing s lines with
  | nil =>
    obtain ⟨-, rfl⟩ := Action.gives_pure.1 h
    exact ⟨[], .nil, by simp, rfl⟩
  | cons step rest ih =>
    unfold planLines at h
    obtain ⟨first, t, hstep, h⟩ := Action.gives_bind.1 h
    obtain ⟨others, hrest, -⟩ := Action.gives_bind_pure.1 h
    obtain ⟨out, hvisits, hmembers, hstage⟩ := ih hrest
    cases step with
    | composite =>
      obtain ⟨-, rfl⟩ := Action.gives_pure.1 hstep
      exact ⟨out, hvisits, hmembers, hstage⟩
    | slot slot =>
      unfold stepLines at hstep
      obtain ⟨slotted, hslot, -⟩ := Action.gives_bind_pure.1 hstep
      rw [slots_cons, slotProducers_cons]
      rcases slotLines_gives hslot with ⟨hl, rfl, -⟩
        | ⟨link, below, body, value, evaluated, hl, rfl, hbelow, hevaluated, -⟩
      · exact ⟨out, by rwa [slotProducers_of_unfed hl], hmembers, hstage⟩
      · have hmarked : Session.evaluated { s with evaluated } = evaluated := rfl
        rw [hmarked, hevaluated] at hvisits hmembers
        refine ⟨below ++ out, ?_, ?_, hstage⟩
        · rw [slotProducers_of_fed hl]
          exact hbelow.append hvisits
        · rw [hmembers, Set.union_assoc]
          congr 1
          ext x
          simp

section WellFormed

variable (hw : net.WellFormed) (hacyclic : net.Acyclic)
include hw hacyclic

/-- A request for a node gives out what its closure lacks. -/
theorem Emitted.evaluate_node (h : Emitted net s out lines) {x : Handle} {node : Node}
    (hn : net.node? x = some node) (hne : x ≠ net.sink)
    (hgives : (Session.evaluate net x).Gives s more s') :
    ∃ new, Emitted net s' (out ++ new) (lines ++ more) ∧ s'.stage = s.stage
      ∧ ∀ y, y ∈ s'.evaluated.members ↔ y ∈ s.evaluated.members ∨ net.DependsOn x y := by
  obtain ⟨hresult, hstate⟩ := evaluate_run_node hw hacyclic hn hne s
  have hvisit : (visit net x).Gives { s with acyclic := true } more s' :=
    ⟨hresult ▸ hgives.1, hstate ▸ hgives.2⟩
  obtain ⟨new, evaluated, rfl, hvisits, hmembers, hcomputes⟩ := visit_gives hvisit
  replace hvisits : Visits net s.evaluated.members [x] new := hvisits
  replace hmembers : evaluated.members = s.evaluated.members ∪ {x | x ∈ new} := hmembers
  have horder : x ∈ net.order.toList := (hw.mem_order x).2 ⟨hne, by simp [hn]⟩
  have hnew : ∀ y ∈ new, y ≠ net.sink := fun y hy =>
    ((hw.mem_order y).1 (hvisits.mem_order hw (List.forall_mem_singleton.2 horder) y hy)).1
  have hkept := hcomputes.setsNode hw hnew
  have hown : more.filter (!Line.setsNode ·) = [] :=
    List.filter_eq_nil_iff.2 fun l hl => by simp [List.filter_eq_self.1 hkept l hl]
  -- A visit from another node does not come to the sink.
  have hsink : net.sink ∈ evaluated.members ↔ net.sink ∈ s.evaluated.members := by
    rw [hmembers]
    exact or_iff_left fun hmem => hnew _ hmem rfl
  refine ⟨new, ⟨?_, fun hmem => ?_, fun hmem => ?_, ?_⟩, rfl, fun y => ?_⟩
  · rw [List.filter_append, hkept]
    refine h.stated.visits hw hacyclic hvisits (fun _ _ => Iff.rfl) hnew (fun y _ => ?_) hcomputes
    show y ∈ evaluated.members ↔ _
    rw [hmembers]
    rfl
  · obtain ⟨hfed, sink, seen, body, hs, hseen, hwritten, hlines⟩ := h.fed (hsink.1 hmem)
    refine ⟨fun y hy => List.mem_append_left _ (hfed y hy), sink, seen, body, hs, hseen,
      hwritten, ?_⟩
    rw [List.filter_append, hown, List.append_nil, hlines]
  · rw [List.filter_append, hown, List.append_nil, h.unfed fun hs => hmem (hsink.2 hs)]
  · exact List.forall_mem_append.2 ⟨h.legible, hcomputes.legible hw hnew⟩
  · show y ∈ evaluated.members ↔ _
    rw [hmembers, Set.mem_union, Set.mem_ofPred_eq,
      h.stated.saturated.mem_iff hw hvisits (List.forall_mem_singleton.2 hne)]
    simp

/-- A request for the sink gives out its lines, with what the closures of the slots lack. -/
theorem Emitted.evaluate_sink (h : Emitted net s out lines) {sink : Node}
    (hs : net.node? net.sink = some sink)
    (hgives : (Session.evaluate net net.sink).Gives s more s') :
    ∃ new, Emitted net s' (out ++ new) (lines ++ more) ∧ s'.stage = s.stage
      ∧ ∀ y, y ∈ s'.evaluated.members
        ↔ y ∈ s.evaluated.members ∨ y = net.sink ∨ net.FeedsStage s.stage y := by
  obtain ⟨hresult, hstate⟩ := evaluate_run_sink hw hs hacyclic s
  -- The sink has been evaluated before, and is answered with nothing, or its plan is written now.
  by_cases hmem : s.evaluated.contains net.sink = true
  · rw [if_pos hmem] at hresult hstate
    obtain rfl : [] = more := Except.ok.inj (hresult.symm.trans hgives.1)
    obtain rfl := hstate.symm.trans hgives.2
    obtain ⟨hfed, hlines⟩ := h.fed hmem
    refine ⟨[], ?_, rfl, fun y => ⟨.inl, ?_⟩⟩
    · rw [List.append_nil, List.append_nil]
      exact ⟨h.stated, h.fed, h.unfed, h.legible⟩
    · rintro (hy | rfl | hy)
      · exact hy
      · exact hmem
      · exact ((h.stated.mem_iff y).1 (hfed y hy)).1
  · rw [if_neg hmem] at hresult hstate
    have hplan : (planLines net sink (plan s.stage)).Gives
        { s with acyclic := true, evaluated := s.evaluated.insert net.sink } more s' :=
      ⟨hresult ▸ hgives.1, hstate ▸ hgives.2⟩
    obtain ⟨hwritten, -⟩ := planLines_gives hplan
    obtain ⟨new, hvisits, hmembers, hstage⟩ := planLines_marks hplan
    replace hstage : s'.stage = s.stage := hstage
    have hmarked : Visited.members (s.evaluated.insert net.sink)
        = insert net.sink s.evaluated.members := Visited.members_insert _ _
    simp only [hmarked] at hwritten hvisits hmembers
    have hseen : net.sink ∈ insert net.sink s.evaluated.members := Set.mem_insert _ _
    obtain ⟨⟨stated, hstated, hcomputes⟩, -⟩ := hwritten.computes hw hseen
    obtain rfl := hvisits.unique hstated
    have hnew := hvisits.ne_of_seen hseen
    have hsink : net.sink ∈ s'.evaluated.members := by
      rw [hmembers]
      exact .inl hseen
    have hother (y : Handle) (hne : y ≠ net.sink) :
        y ∈ s'.evaluated.members ↔ y ∈ s.evaluated.members ∨ y ∈ new := by
      rw [hmembers]
      simp [hne]
    have hproducers : ∀ p ∈ slotProducers sink ((plan s.stage).filterMap Step.slot?),
        p ≠ net.sink := fun p hp =>
      ((hw.mem_order p).1 (hw.mem_order_of_slotProducers hs p hp)).1
    have hcovers (y : Handle) : y ∈ s'.evaluated.members
        ↔ y ∈ s.evaluated.members ∨ y = net.sink ∨ net.FeedsStage s.stage y := by
      have hiff := (h.stated.saturated.insert_sink).mem_iff hw hvisits hproducers (x := y)
      rw [hmembers, Set.mem_union, Set.mem_ofPred_eq, hiff, feedsStage_iff hs, Set.mem_insert_iff,
        or_assoc, or_left_comm]
      rfl
    refine ⟨new, ⟨?_, fun _ => ⟨fun y hy => ?_, sink, _, more, hs, hseen, ?_, ?_⟩,
      fun hnot => absurd hsink hnot, ?_⟩, hstage, hcovers⟩
    · rw [List.filter_append]
      refine h.stated.visits hw hacyclic hvisits (fun y hne => ?_) hnew hother hcomputes
      simp [hne]
    · rw [hstage] at hy
      have hne : y ≠ net.sink := ((hw.mem_order y).1 (hw.mem_order_of_feedsStage hy)).1
      have hmem' := (hother y hne).1 ((hcovers y).2 (.inr (.inr hy)))
      exact List.mem_append.2 (hmem'.imp_left fun hy => (h.stated.mem_iff y).2 ⟨hy, hne⟩)
    · rw [hstage]
      exact hwritten
    · rw [List.filter_append, h.unfed hmem, List.nil_append]
    · exact List.forall_mem_append.2 ⟨h.legible, hwritten.legible hw hs hseen⟩

/-- A request adds the statements that it covers and that are missing, whether or not it is for the
    sink. -/
theorem Emitted.evaluate (h : Emitted net s out lines) {x : Handle}
    (hgives : (Session.evaluate net x).Gives s more s') :
    ∃ new, Emitted net s' (out ++ new) (lines ++ more) ∧ s'.stage = s.stage
      ∧ ∀ y, y ∈ s'.evaluated.members ↔ y ∈ s.evaluated.members ∨ net.Covers s.stage x y := by
  obtain ⟨_, t, -, hrest⟩ := Action.gives_bind.1 hgives
  obtain ⟨node, hget, -⟩ := Action.gives_lift_bind.1 hrest
  unfold Covers
  by_cases hx : x = net.sink
  · rw [hx] at hgives hget
    simp only [if_pos hx]
    exact h.evaluate_sink hw hacyclic (get_eq_ok.1 hget) hgives
  · simp only [if_neg hx]
    exact h.evaluate_node hw hacyclic (get_eq_ok.1 hget) hx hgives

/-- Nothing is given out for what has been computed. -/
theorem evaluate_of_marked {x : Handle} (hx : x ∈ s.evaluated.members)
    (hgives : (Session.evaluate net x).Gives s more s') : more = [] := by
  obtain ⟨_, t, -, hrest⟩ := Action.gives_bind.1 hgives
  obtain ⟨node, hget, -⟩ := Action.gives_lift_bind.1 hrest
  have hn := get_eq_ok.1 hget
  by_cases hne : x = net.sink
  · rw [hne] at hgives hx hn
    have hresult := (evaluate_run_sink hw hn hacyclic s).1
    rw [if_pos (Visited.mem_members.1 hx)] at hresult
    exact Except.ok.inj (hgives.1.symm.trans hresult)
  · have hresult := (evaluate_run_node hw hacyclic hn hne s).1
    have hnone : (visit net x).Gives { s with acyclic := true } [] { s with acyclic := true } := by
      refine visit_of_evaluated ?_
      exact hx
    replace hnone := hnone.1
    exact Except.ok.inj (hgives.1.symm.trans (hresult.trans hnone))

/-! ### Requests one after the other -/

omit hw hacyclic in
/-- A request that is answered with a text has given out the lines of the text. -/
theorem exists_evaluate_of_serve {x : Handle} {text : String}
    (h : ((serve net (.evaluate x)).run s).result = .ok (.text text)) :
    ∃ more, (Session.evaluate net x).Gives s more ((serve net (.evaluate x)).run s).state
      ∧ linesText more = text := by
  obtain ⟨more, hgives, htext⟩ := Action.gives_bind_pure.1 ⟨h, rfl⟩
  exact ⟨more, hgives, Reply.text.inj htext⟩

omit hw hacyclic in
/-- The answers to several requests are those to the first and to the others. -/
theorem serveAll_cons {x : Handle} {xs : List Handle} {texts : List String}
    (h : (serveAll net ((x :: xs).map .evaluate) s).1 = texts.map fun t => .ok (.text t)) :
    ∃ more later, texts = linesText more :: later
      ∧ (Session.evaluate net x).Gives s more ((serve net (.evaluate x)).run s).state
      ∧ (serveAll net (xs.map .evaluate) ((serve net (.evaluate x)).run s).state).1
        = later.map fun t => .ok (.text t) := by
  cases texts with
  | nil => cases h
  | cons text later =>
    obtain ⟨hfirst, hrest⟩ := List.cons.inj h
    obtain ⟨more, hgives, rfl⟩ := exists_evaluate_of_serve hfirst
    exact ⟨more, later, rfl, hgives, hrest⟩

/-- Several requests add theirs one after the other. -/
theorem Emitted.serveAll (h : Emitted net s out lines) {xs : List Handle} {texts : List String}
    (hok : (Session.serveAll net (xs.map .evaluate) s).1 = texts.map fun t => .ok (.text t)) :
    ∃ s' new more, Emitted net s' (out ++ new) (lines ++ more)
      ∧ String.join texts = linesText more ∧ s'.stage = s.stage
      ∧ ∀ y, y ∈ s'.evaluated.members
        ↔ y ∈ s.evaluated.members ∨ ∃ x ∈ xs, net.Covers s.stage x y := by
  -- Request by request, each in the session that the ones before have left.
  induction xs generalizing s out lines texts with
  | nil =>
    obtain rfl := List.map_eq_nil_iff.1 hok.symm
    exact ⟨s, [], [], by simpa using h, rfl, rfl, by simp⟩
  | cons x rest ih =>
    obtain ⟨first, later, rfl, hgives, hrest⟩ := serveAll_cons hok
    obtain ⟨new, hfirst, hstage, hmem⟩ := h.evaluate hw hacyclic hgives
    obtain ⟨s', new', more, hemitted, htexts, hstage', hmem'⟩ := ih hfirst hrest
    refine ⟨s', new ++ new', first ++ more, ?_, ?_, hstage'.trans hstage, fun y => ?_⟩
    · rwa [← List.append_assoc, ← List.append_assoc]
    · rw [String.join_cons, htexts, linesText_append]
    · rw [hmem', hmem, hstage, or_assoc]
      simp

/-- Among the answers, those to requests for what has been computed are empty. -/
theorem Emitted.empty_of_marked (h : Emitted net s out lines) {xs : List Handle}
    {texts : List String}
    (hok : (Session.serveAll net (xs.map .evaluate) s).1 = texts.map fun t => .ok (.text t))
    {j : Nat} {y : Handle} (hy : xs[j]? = some y) (hmarked : y ∈ s.evaluated.members) :
    texts[j]? = some "" := by
  induction xs generalizing s out lines texts j with
  | nil => simp at hy
  | cons x rest ih =>
    obtain ⟨first, later, rfl, hgives, hrest⟩ := serveAll_cons hok
    -- What is marked stays marked, so the request may come later.
    cases j with
    | zero =>
      obtain rfl := Option.some.inj hy
      rw [evaluate_of_marked hw hacyclic hmarked hgives]
      rfl
    | succ j =>
      obtain ⟨new, hfirst, -, hmem⟩ := h.evaluate hw hacyclic hgives
      exact ih hfirst hrest hy ((hmem y).2 (.inl hmarked))

/-- Nor does a request that an earlier one covers bring in anything. -/
theorem Emitted.empty_of_covers (h : Emitted net s out lines) {xs : List Handle}
    {texts : List String}
    (hok : (Session.serveAll net (xs.map .evaluate) s).1 = texts.map fun t => .ok (.text t))
    {i j : Nat} {x y : Handle} (hij : i < j) (hx : xs[i]? = some x) (hy : xs[j]? = some y)
    (hcovers : net.Covers s.stage x y) : texts[j]? = some "" := by
  induction xs generalizing s out lines texts i j with
  | nil => simp at hx
  | cons z rest ih =>
    obtain ⟨first, later, rfl, hgives, hrest⟩ := serveAll_cons hok
    obtain ⟨new, hfirst, hstage, hmem⟩ := h.evaluate hw hacyclic hgives
    cases j with
    | zero => omega
    | succ j =>
      cases i with
      | zero =>
        obtain rfl := Option.some.inj hx
        exact hfirst.empty_of_marked hw hacyclic hrest hy ((hmem y).2 (.inr hcovers))
      | succ i =>
        rw [← hstage] at hcovers
        exact ih hfirst hrest (by omega) hx hy hcovers

/-! ### Requests that are answered -/

omit hacyclic in
/-- In a harmless network all links are covered by the promotion rules. -/
theorem linksConvert_of_harmless (h : net.harmless = true) (y : Handle) : net.LinksConvert y := by
  intro n hn l hl
  simp only [harmless, Bool.and_eq_true, List.all_eq_true] at h
  have hnode := h.1 y (hw.mem_handlesInOrder.2 (by simp [hn]))
  rw [hn, Bool.and_eq_true, List.all_eq_true] at hnode
  exact converts_of_converts (hnode.1 l hl)

/-- Where all links are covered by the promotion rules, a request for a live node is answered. -/
theorem exists_evaluate (hlinks : ∀ y, net.LinksConvert y) {x : Handle}
    (hx : (net.node? x).isSome) : ∃ more s', (Session.evaluate net x).Gives s more s' := by
  obtain ⟨node, hn⟩ := Option.isSome_iff_exists.1 hx
  rcases Action.gives_or_fails (Session.evaluate net x) s with hgives | ⟨fault, s', hfails⟩
  · exact hgives
  by_cases hne : x = net.sink
  · obtain rfl := hne
    obtain ⟨hresult, hstate⟩ := evaluate_run_sink hw hn hacyclic s
    split at hresult
    · cases hfails.1.symm.trans hresult
    · rename_i hmem
      rw [if_neg hmem] at hstate
      obtain ⟨-, hcause⟩ := planLines_fails hw hn
        (⟨hresult.symm.trans hfails.1, hstate.symm.trans hfails.2⟩ : Action.Fails _ _ fault s')
      rcases hcause with ⟨slot, -, link, hl, hno⟩ | ⟨p, -, y, -, hno⟩
      · exact absurd (hlinks _ node hn link (Node.link?_eq_some hl).1) hno
      · exact absurd (hlinks y) hno
  · obtain ⟨hresult, hstate⟩ := evaluate_run_node hw hacyclic hn hne s
    obtain ⟨y, hy, hfault⟩ := visit_fails hw hx
      (⟨hresult.symm.trans hfails.1, hstate.symm.trans hfails.2⟩ : Action.Fails _ _ fault s')
    exact absurd (hlinks y) (statementOf_eq_error hw (hw.isSome_of_dependsOn hx hy) hfault).2

/-- Where every link can be promoted, live nodes are answered with texts. -/
theorem exists_texts (hlinks : ∀ y, net.LinksConvert y) (xs : List Handle)
    (hxs : ∀ x ∈ xs, (net.node? x).isSome) (s : Session) :
    ∃ texts : List String, (Session.serveAll net (xs.map .evaluate) s).1
      = texts.map fun t => .ok (.text t) := by
  induction xs generalizing s with
  | nil => exact ⟨[], rfl⟩
  | cons x rest ih =>
    obtain ⟨hx, hrest⟩ := List.forall_mem_cons.1 hxs
    obtain ⟨more, s', hgives⟩ := exists_evaluate hw hacyclic hlinks hx (s := s)
    obtain ⟨texts, htexts⟩ := ih hrest ((serve net (.evaluate x)).run s).state
    have hfirst : ((serve net (.evaluate x)).run s).result = .ok (.text (linesText more)) :=
      (Action.gives_bind_pure.2 ⟨more, hgives, rfl⟩ :
        (serve net (.evaluate x)).Gives s (.text (linesText more)) s').1
    exact ⟨linesText more :: texts, by simp only [List.map_cons, Session.serveAll, hfirst, htexts]⟩

end WellFormed

/-! ### The lines of the answers -/

section Lines

variable (h : Emitted net s out lines)
include h

/-- The lines of a text are those that have been given out, and an empty one at its end. -/
theorem Emitted.textLines : textLines (linesText lines) = lines.map Line.text ++ [""] := by
  have htext : linesText lines = unlines (lines.map Line.text) := by
    simp [linesText, unlines, Function.comp_def]
  rw [htext, textLines_unlines (List.forall_mem_map.2 fun l hl => (h.legible l hl).printable)]

/-- The statement of a node stands there once. -/
theorem Emitted.count_text (hw : net.WellFormed) {y : Handle} (hy : y ∈ out) {l : Line}
    (hl : net.ownLine? y = some l) :
    (MaterialNet.textLines (linesText lines)).count l.text = 1 := by
  obtain ⟨events, hs⟩ := ownLine?_eq_some.1 hl
  have hne := ne_sink_of_ownLine? hw hl
  have hmem := h.stated.computes.mem_of_statementOf hy hs
  have hsets : l.setsNode = true := (List.mem_filter.1 hmem).2
  have hlegible := legible_of_statementOf hw hne hs
  have hnodup := h.stated.computes.nodup_texts hw h.stated.nodup
  -- No line of the sink has this text, since it would set the same variable.
  have hother : ∀ m ∈ lines.filter (!Line.setsNode ·), m.text ≠ l.text := by
    intro m hm ht
    obtain ⟨hm, hnot⟩ := List.mem_filter.1 hm
    have hsame := ((h.legible m hm).same hlegible ht).1
    rw [Line.setsNode, hsame, ← Line.setsNode, hsets] at hnot
    cases hnot
  have hnone : ((lines.filter (!Line.setsNode ·)).map Line.text).count l.text = 0 := by
    refine List.count_eq_zero.2 fun hm => ?_
    obtain ⟨m, hm, ht⟩ := List.mem_map.1 hm
    exact hother m hm ht
  have hone := List.count_eq_one_of_mem hnodup (List.mem_map_of_mem hmem)
  rw [h.textLines, List.count_append, List.count_singleton,
    ← ((List.filter_append_perm Line.setsNode lines).map Line.text).count_eq, List.map_append,
    List.count_append, hone, hnone]
  simp [l.text_ne_empty.symm]

/-- The statement of a node stands there after those of the nodes that it reads. -/
theorem Emitted.sublist {y q : Handle} (hy : y ∈ out) (hq : net.Reads y q) {l l' : Line}
    (hl : net.ownLine? y = some l) (hl' : net.ownLine? q = some l') :
    [l'.text, l.text].Sublist (MaterialNet.textLines (linesText lines)) := by
  obtain ⟨before, after, hout⟩ := List.append_of_mem hy
  have hbefore := h.stated.ordered before y after hout q hq
  have hsub := (h.stated.computes.sublist hout hbefore hl' hl).trans List.filter_sublist
  rw [h.textLines]
  exact (hsub.map Line.text).trans (List.sublist_append_left _ _)

/-- Sessions that have computed the same in one stage have given out the same lines. -/
theorem Emitted.perm (hw : net.WellFormed) {t : Session} {out' : List Handle} {lines' : List Line}
    (h' : Emitted net t out' lines') (hstage : t.stage = s.stage)
    (hmembers : ∀ y, y ∈ s.evaluated.members ↔ y ∈ t.evaluated.members) : lines.Perm lines' := by
  have hout : out.Perm out' := (List.perm_ext_iff_of_nodup h.stated.nodup h'.stated.nodup).2
    fun y => by rw [h.stated.mem_iff, h'.stated.mem_iff, hmembers]
  have hfirst : (lines.filter Line.setsNode).Perm (lines'.filter Line.setsNode) := by
    rw [h.stated.computes.eq_filterMap, h'.stated.computes.eq_filterMap]
    exact hout.filterMap _
  have hsecond : lines.filter (!Line.setsNode ·) = lines'.filter (!Line.setsNode ·) := by
    by_cases hsink : net.sink ∈ s.evaluated.members
    · obtain ⟨-, sink, seen, body, hs, hseen, hwritten, hlines⟩ := h.fed hsink
      obtain ⟨-, sink', seen', body', hs', hseen', hwritten', hlines'⟩ :=
        h'.fed ((hmembers _).1 hsink)
      obtain rfl := Option.some.inj (hs.symm.trans hs')
      rw [hstage] at hwritten'
      rw [hlines, hlines', hwritten.own_unique hw hwritten' hseen hseen']
    · rw [h.unfed hsink, h'.unfed fun hs => hsink ((hmembers _).2 hs)]
  have hparts := hfirst.append (List.Perm.of_eq hsecond)
  exact (List.filter_append_perm _ _).symm.trans (hparts.trans (List.filter_append_perm _ _))

end Lines

end Session

/-! ### What the answers have in the end -/

namespace Network

variable {net : Network}

/-- Some of the requests for nodes cover `y`. -/
def Covered (net : Network) (stage : Stage) (xs : List Handle) (y : Handle) : Prop :=
  ∃ x ∈ xs, net.Covers stage x y

/-- The answers to requests for nodes, one after the other, in a session that has computed nothing
    in its stage yet. -/
structure Incremental (net : Network) (stage : Stage) (xs : List Handle) (texts : List String) :
    Prop where
  /-- What is covered has a statement, or is written without one. -/
  stated : ∀ y, net.Covered stage xs y → y ≠ net.sink → ∃ r, net.statementOf y = .ok r
  /-- The statement of each node that is covered stands there once. -/
  once : ∀ y, net.Covered stage xs y → ∀ l, net.ownLine? y = some l →
    (textLines (String.join texts)).count l.text = 1
  /-- It comes after those of the nodes that the node reads. -/
  ordered : ∀ y, net.Covered stage xs y → ∀ q, net.Reads y q → ∀ l l', net.ownLine? y = some l →
    net.ownLine? q = some l' → [l'.text, l.text].Sublist (textLines (String.join texts))
  /-- A request that an earlier one covers is answered with nothing. -/
  empty : ∀ (i j : Nat) (x y : Handle), i < j → xs[i]? = some x → xs[j]? = some y →
    net.Covers stage x y → texts[j]? = some ""

/-- The answers of a session that has computed nothing in its stage have the statement of each node
    that is asked for or needed, once, in an order in which it can be executed.  Requests that cover
    the same are answered with the same lines, in whatever order. -/
theorem Arises.incremental (h : net.Arises) (hacyclic : net.Acyclic) {s : Session}
    (hs : ∀ x, s.evaluated.contains x = false) {xs : List Handle} {texts : List String}
    (hok : (Session.serveAll net (xs.map .evaluate) s).1 = texts.map fun t => .ok (.text t)) :
    net.Incremental s.stage xs texts
      ∧ ∀ (s' : Session) (xs' : List Handle) (texts' : List String), s'.stage = s.stage →
        (∀ x, s'.evaluated.contains x = false) →
        (Session.serveAll net (xs'.map .evaluate) s').1 = texts'.map (fun t => .ok (.text t)) →
        (∀ y, net.Covered s.stage xs y ↔ net.Covered s.stage xs' y) →
        (textLines (String.join texts)).Perm (textLines (String.join texts')) := by
  have hw := h.wellFormed
  have hnone {t : Session} (ht : ∀ x, t.evaluated.contains x = false) {y : Handle} :
      y ∉ t.evaluated.members := by
    simp [Visited.mem_members, ht y]
  obtain ⟨t, out, lines, hemitted, htexts, hstage, hmem⟩ :=
    (Session.emitted_nil hs).serveAll hw hacyclic hok
  rw [List.nil_append, List.nil_append] at hemitted
  simp only [hnone hs, false_or] at hmem
  have hout {y : Handle} (hy : net.Covered s.stage xs y) (hne : y ≠ net.sink) : y ∈ out :=
    (hemitted.stated.mem_iff y).2 ⟨(hmem y).2 hy, hne⟩
  refine ⟨⟨fun y hy hne => ?_, fun y hy l hl => ?_, fun y hy q hq l l' hl hl' => ?_,
    fun i j x y hij hx hy hcovers => ?_⟩, fun s' xs' texts' hstage' hs' hok' hiff => ?_⟩
  · obtain ⟨line?, events, hstatement⟩ :=
      hemitted.stated.computes.exists_statementOf y (hout hy hne)
    exact ⟨_, hstatement⟩
  · rw [htexts]
    exact hemitted.count_text hw (hout hy (ne_sink_of_ownLine? hw hl)) hl
  · rw [htexts]
    exact hemitted.sublist (hout hy (ne_sink_of_ownLine? hw hl)) hq hl hl'
  · exact (Session.emitted_nil hs).empty_of_covers hw hacyclic hok hij hx hy hcovers
  · obtain ⟨t', out', lines', hemitted', htexts', hstage'', hmem'⟩ :=
      (Session.emitted_nil hs').serveAll hw hacyclic hok'
    rw [List.nil_append, List.nil_append] at hemitted'
    simp only [hnone hs', false_or, hstage'] at hmem'
    have hperm := hemitted.perm hw hemitted' (by rw [hstage'', hstage', hstage]) fun y => by
      rw [hmem, hmem']
      exact hiff y
    rw [htexts, htexts', hemitted.textLines, hemitted'.textLines]
    exact (hperm.map Line.text).append_right _

/-- The shared texture of a function and of a slot, which are computed in two orders. -/
theorem incremental_sharedTexture : sharedTexture.Arises ∧ sharedTexture.Acyclic
    ∧ (∀ x, (Session.fresh.enterStage .fragment).evaluated.contains x = false)
    ∧ ∃ texts texts' : List String,
      (Session.serveAll sharedTexture ([⟨3, 1⟩, ⟨1, 1⟩, ⟨2, 1⟩].map .evaluate)
          (Session.fresh.enterStage .fragment)).1 = texts.map (fun t => .ok (.text t))
        ∧ (Session.serveAll sharedTexture ([⟨2, 1⟩, ⟨1, 1⟩, ⟨3, 1⟩].map .evaluate)
          (Session.fresh.enterStage .fragment)).1 = texts'.map (fun t => .ok (.text t))
        ∧ sharedTexture.Incremental .fragment [⟨3, 1⟩, ⟨1, 1⟩, ⟨2, 1⟩] texts
        ∧ (textLines (String.join texts)).Perm (textLines (String.join texts')) := by
  have h : sharedTexture.Arises := (Arises.new {}).run (by decide +kernel)
  have hranked : sharedTexture.ranked sharedRank = true := by decide +kernel
  have hacyclic := acyclic_of_ranked hranked
  have hnone : ∀ x, (Session.fresh.enterStage .fragment).evaluated.contains x = false := by
    intro x
    show (Std.TreeSet.empty : Visited).contains x = false
    simp
  have hlinks : ∀ y, sharedTexture.LinksConvert y :=
    Session.linksConvert_of_harmless h.wellFormed (by decide +kernel)
  obtain ⟨texts, hok⟩ := Session.exists_texts h.wellFormed hacyclic hlinks
    [⟨3, 1⟩, ⟨1, 1⟩, ⟨2, 1⟩] (by decide +kernel) (Session.fresh.enterStage .fragment)
  obtain ⟨texts', hok'⟩ := Session.exists_texts h.wellFormed hacyclic hlinks
    [⟨2, 1⟩, ⟨1, 1⟩, ⟨3, 1⟩] (by decide +kernel) (Session.fresh.enterStage .fragment)
  obtain ⟨hincremental, hperm⟩ := h.incremental hacyclic hnone hok
  refine ⟨h, hacyclic, hnone, texts, texts', hok, hok', hincremental,
    hperm _ _ _ rfl hnone hok' fun y => ?_⟩
  have hreverse : [⟨2, 1⟩, ⟨1, 1⟩, ⟨3, 1⟩] = ([⟨3, 1⟩, ⟨1, 1⟩, ⟨2, 1⟩] : List Handle).reverse := rfl
  simp only [Covered, hreverse, List.mem_reverse]

end Network

end MaterialNet
