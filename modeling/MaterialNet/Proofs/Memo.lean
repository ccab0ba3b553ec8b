import MaterialNet.Proofs.Recursion

namespace MaterialNet

/-!
# What a session remembers

A session marks a node as computed before it writes the node's statement, and with it everything
that the node depends on.  The marked nodes are therefore closed under dependence at any time.  The
marks stay where a statement then fails, and so the session answers the same request, made again,
with nothing at all.

* `Action.Keeps` — a property of the state that an action keeps, whether it answers or fails
* `Network.Saturated` — with a node, everything that it reads has been computed
* `Session.Served.saturated` — so it is in every session
* `Session.Retried` — what comes of a failed request when it is made again
* `Network.Arises.retried` — the sessions of every network, after any requests
-/

/-! ### Properties of the state -/

namespace Action

variable {σ α β : Type} {P : σ → Prop} {x : Action σ α} {f : α → Action σ β} {g : σ → Action σ β}

/-- Whether it answers or fails, an action that starts in a state with the property leaves one with
    the property behind. -/
def Keeps (P : σ → Prop) (x : Action σ α) : Prop := ∀ s, P s → P (x.run s).state

theorem keeps_pure (a : α) : (pure a : Action σ α).Keeps P := fun _ hs => hs

theorem keeps_lift (r : Except Fault α) : (lift r : Action σ α).Keeps P := fun _ hs => hs

theorem keeps_note (events : List Event) : (note events : Action σ Unit).Keeps P := fun _ hs => hs

/-- A change keeps what it keeps in every state. -/
theorem keeps_modifyState {change : σ → σ} (h : ∀ s, P s → P (change s)) :
    (modifyState change).Keeps P := h

/-- A sequence keeps what both of its actions keep, even if it fails half-way. -/
theorem Keeps.bind (hx : x.Keeps P) (hf : ∀ a, (f a).Keeps P) : (x >>= f).Keeps P := by
  intro s hs
  have hstate := hx s hs
  rw [run_bind]
  rcases hr : x.run s with ⟨_ | a, t, events⟩
  · rw [hr] at hstate
    exact hstate
  · rw [hr] at hstate
    exact hf a t hstate

/-- After a look at the state, only this state has to be considered. -/
theorem keeps_getState_bind (h : ∀ s, P s → P ((g s).run s).state) : (getState >>= g).Keeps P := h

/-- An action that begins with what may fail leaves the state alone where it does. -/
theorem property_lift_bind {r : Except Fault α} {s : σ} (hs : P s)
    (h : ∀ a, r = .ok a → P ((f a).run s).state) : P ((lift r >>= f).run s).state := by
  cases r with
  | error fault => exact hs
  | ok a => exact h a rfl

end Action

open MaterialNet.Action (keeps_pure keeps_lift keeps_note keeps_modifyState keeps_getState_bind
  property_lift_bind)

namespace Network

variable {net : Network} {seen : Set Handle} {pending out : List Handle}

/-- Everything that a node of the set reads is in the set as well; the sink is left aside, since it
    counts as computed before its slots are. -/
def Saturated (net : Network) (seen : Set Handle) : Prop :=
  ∀ x ∈ seen, x ≠ net.sink → ∀ q, net.Reads x q → q ∈ seen

theorem saturated_empty : net.Saturated ∅ := fun _ hx => hx.elim

/-- The sink may be marked before its producers, since it is not counted. -/
theorem Saturated.insert_sink (h : net.Saturated seen) : net.Saturated (insert net.sink seen) := by
  intro x hx hne q hq
  rcases hx with rfl | hx
  · exact absurd rfl hne
  · exact .inr (h x hx hne q hq)

section WellFormed

variable (hw : net.WellFormed)
include hw

/-- After a visit all that has been marked is closed again. -/
theorem Saturated.visits (h : net.Saturated seen) (hv : Visits net seen pending out) :
    net.Saturated (seen ∪ {x | x ∈ out}) := by
  intro x hx hne q hq
  rcases hx with hx | hx
  · exact .inl (h x hx hne q hq)
  · obtain ⟨node, hn, -⟩ := id hq
    exact hv.closed x hx node hn q ((hw.reads_iff hn).1 hq)

/-- With a node other than the sink, everything that it depends on is in a saturated set. -/
theorem Saturated.mem_of_dependsOn (h : net.Saturated seen) {x y : Handle} (hx : x ∈ seen)
    (hne : x ≠ net.sink) (hd : net.DependsOn x y) : y ∈ seen := by
  suffices hboth : y ∈ seen ∧ y ≠ net.sink from hboth.1
  induction hd with
  | refl => exact ⟨hx, hne⟩
  | tail _ hr ih => exact ⟨h _ ih.1 ih.2 _ hr, hw.ne_sink_of_reads hr⟩

end WellFormed

end Network

namespace Session

open Network

variable {net : Network} {s s' : Session} {P : Set Handle → Prop} {fault : Fault} {x : Handle}

/-! ### What actions remember -/

/-- Whether it answers or fails, the action keeps a property of what has been computed. -/
abbrev Remembers (P : Set Handle → Prop) {α : Type} (x : Action Session α) : Prop :=
  x.Keeps fun s => P s.evaluated.members

/-- A search for cycles marks nothing. -/
theorem remembers_ensureAcyclic : Remembers P (ensureAcyclic net) := by
  refine keeps_getState_bind fun s hs => ?_
  split
  · exact hs
  · exact property_lift_bind (P := fun t : Session => P t.evaluated.members) hs fun _ _ => hs

/-- Taking a name marks nothing. -/
theorem remembers_takeName (name : String) (owner : Handle) :
    Remembers P (takeName name owner) := by
  refine keeps_getState_bind fun s hs => ?_
  split
  · split <;> exact hs
  · exact hs

/-- Listing a uniform marks nothing. -/
theorem remembers_listUniform (n : Node) : Remembers P (listUniform net n) := by
  refine keeps_getState_bind fun s hs => ?_
  split
  · exact hs
  · split
    · exact hs
    · split <;> exact hs
    · exact hs
    · exact hs

/-- Declaring a node does not mark it as computed. -/
theorem remembers_declareNode (x : Handle) : Remembers P (declareNode net x) := by
  refine (keeps_lift _).bind fun n => .bind ?_ fun _ => .bind ?_ fun _ => ?_
  · refine (remembers_takeName _ _).bind fun _ => ?_
    split
    · exact keeps_pure _
    · exact remembers_takeName _ _
  · unfold collect
    split
    · exact keeps_modifyState fun _ hs => hs
    · exact keeps_pure _
  · split
    · exact remembers_listUniform n
    · exact keeps_pure _

/-- The same for several nodes. -/
theorem remembers_declareNodes (hs : List Handle) : Remembers P (declareNodes net hs) := by
  induction hs with
  | nil => exact keeps_pure _
  | cons x rest ih => exact (remembers_declareNode x).bind fun _ => ih

/-- The same for what feeds the slots. -/
theorem remembers_declareSlots (sink : Node) (slots : List Slot) :
    Remembers P (declareSlots net sink slots) := by
  induction slots with
  | nil => exact keeps_pure _
  | cons slot rest ih =>
    refine .bind ?_ fun _ => ih
    unfold declareSlot
    split
    · refine keeps_getState_bind fun s hs => ?_
      refine property_lift_bind (P := fun t : Session => P t.evaluated.members) hs fun found _ => ?_
      exact remembers_declareNodes found.1.toList { s with declared := found.2 } hs
    · exact keeps_pure _

/-- A property of sessions that lasts when a visit marks what it lists. -/
def Lasting (net : Network) (Q : Session → Prop) : Prop :=
  ∀ s root out evaluated, Q s → Visits net s.evaluated.members [root] out →
    evaluated.members = s.evaluated.members ∪ {x | x ∈ out} → Q { s with evaluated }

section Lasting

variable {Q : Session → Prop} (hlasting : Lasting net Q)
include hlasting

/-- What is lasting lasts through a visit, which marks before it writes. -/
theorem Lasting.visit (x : Handle) : (visit net x).Keeps Q := by
  refine keeps_getState_bind fun s hs => property_lift_bind hs fun found hwalk => ?_
  obtain ⟨hvisits, hmembers⟩ := visits_of_postOrder hwalk
  rw [Action.run_setState_bind, (statements_run _ _).2]
  exact hlasting s x _ _ hs hvisits hmembers

/-- What is lasting lasts through the writing of a plan, which visits slot by slot. -/
theorem Lasting.planLines (sink : Node) (steps : List Step) :
    (planLines net sink steps).Keeps Q := by
  -- Step by step; only a slot with a link is visited.
  induction steps with
  | nil => exact keeps_pure _
  | cons step rest ih =>
    refine .bind ?_ fun _ => ih.bind fun _ => keeps_pure _
    cases step with
    | composite => exact keeps_pure _
    | slot slot =>
      refine .bind ?_ fun _ => keeps_pure _
      unfold slotLines
      split
      · exact (keeps_note _).bind fun _ => keeps_pure _
      · refine (hlasting.visit _).bind fun _ => ?_
        exact (keeps_lift _).bind fun _ => keeps_pure _

end Lasting

/-- What has been marked stays marked, and what a session says about cycles stays said. -/
theorem lasting_marked (x : Handle) :
    Lasting net fun s => s.acyclic = true ∧ s.evaluated.contains x = true := by
  intro s root out evaluated hs _ hmembers
  have hx : x ∈ evaluated.members := by
    rw [hmembers]
    exact .inl hs.2
  exact ⟨hs.1, hx⟩

/-! ### What has been computed is closed under dependence -/

section WellFormed

variable (hw : net.WellFormed)
include hw

/-- Being closed under producers is lasting. -/
theorem lasting_saturated : Lasting net fun s => net.Saturated s.evaluated.members := by
  intro s root out evaluated hs hv hmembers
  show net.Saturated evaluated.members
  rw [hmembers]
  exact hs.visits hw hv

/-- Evaluating a node leaves what is marked closed, also where it fails. -/
theorem saturated_evaluate (x : Handle) : Remembers net.Saturated (evaluate net x) := by
  refine fun s hs => remembers_ensureAcyclic.bind (fun _ t ht => ?_) s hs
  refine property_lift_bind (P := fun t : Session => net.Saturated t.evaluated.members) ht
    fun node hn => ?_
  -- The sink is marked before its plan is written; any other node is visited.
  split
  · rename_i hsink
    obtain rfl := (hw.isSink_iff (get_eq_ok.1 hn)).1 hsink
    rw [Action.run_getState_bind]
    split
    · exact ht
    · refine (lasting_saturated hw).planLines node (plan t.stage) _ ?_
      show net.Saturated (Visited.members (t.evaluated.insert net.sink))
      rw [Visited.members_insert]
      exact ht.insert_sink
  · exact (lasting_saturated hw).visit x t ht

/-- So does assembling a stage, which starts with nothing marked. -/
theorem saturated_assemble (stage : Stage) : Remembers net.Saturated (assemble net stage) := by
  refine .bind ?_ fun body => ?_
  · refine remembers_ensureAcyclic.bind fun _ => .bind ?_ fun _ => ?_
    · refine keeps_modifyState fun s _ => ?_
      show net.Saturated (Visited.members .empty)
      rw [Visited.members_empty]
      exact saturated_empty
    · refine (keeps_lift _).bind fun sink => (remembers_declareSlots _ _).bind fun _ => ?_
      refine (saturated_evaluate hw _).bind fun body => keeps_getState_bind fun s hs => ?_
      exact hs
  · refine keeps_getState_bind fun s hs => ?_
    split <;> exact hs

/-- Whatever a session has been asked, with a node everything that it depends on has been computed,
    and this also if the request has failed. -/
theorem Served.saturated (h : Served net s) : net.Saturated s.evaluated.members := by
  induction h with
  | fresh =>
    show net.Saturated (Visited.members .empty)
    rw [Visited.members_empty]
    exact saturated_empty
  | check _ ih => exact remembers_ensureAcyclic _ ih
  | evaluate x _ ih => exact saturated_evaluate hw x _ ih
  | assemble stage _ ih => exact saturated_assemble hw stage _ ih

/-! ### The same request again -/

end WellFormed

/-- What has been computed is not computed again. -/
theorem visit_of_evaluated (h : s.evaluated.contains x = true) : (visit net x).Gives s [] s := by
  have hwalk : net.postOrder x s.evaluated = .ok (#[], s.evaluated) := by
    unfold postOrder
    rw [if_pos h]
  refine Action.gives_getState_bind.2 (Action.gives_lift_bind.2 ⟨_, hwalk, ?_⟩)
  exact Action.gives_setState_bind.2 (Action.gives_pure.2 ⟨rfl, rfl⟩)

/-- Nor is the sink, and in a session that counts the network as free of cycles nothing is searched
    for either. -/
theorem evaluate_of_evaluated (hacyclic : s.acyclic = true) (hlive : (net.node? x).isSome)
    (h : s.evaluated.contains x = true) : (evaluate net x).Gives s [] s := by
  obtain ⟨node, hn⟩ := Option.isSome_iff_exists.1 hlive
  have hensure : (ensureAcyclic net).Gives s () s := by
    refine Action.gives_getState_bind.2 ?_
    rw [if_pos hacyclic]
    exact Action.gives_pure.2 ⟨rfl, rfl⟩
  refine Action.gives_bind.2 ⟨(), s, hensure, Action.gives_lift_bind.2 ⟨node, get_eq_ok.2 hn, ?_⟩⟩
  split
  · refine Action.gives_getState_bind.2 ?_
    rw [if_pos h]
    exact Action.gives_pure.2 ⟨rfl, rfl⟩
  · exact visit_of_evaluated h

/-- What comes of a request to compute `x` that failed and left the session `s'`, when it is made
    again at once. -/
inductive Retried (net : Network) (x : Handle) (fault : Fault) (s' : Session) : Prop where
  /-- A cycle, or a handle that names nothing, is found again. -/
  | refused (hcause : (∃ id, fault = .cyclic id) ∨ fault = .staleHandle x)
      (hagain : (serve net (.evaluate x)).Fails s' fault s')
  /-- A link without a promotion is not come across again: the answer is empty, and so it is for
      everything that the node depends on. -/
  | dropped (hcause : ∃ name produced required, fault = .noPromotion name produced required)
      (hagain : (serve net (.evaluate x)).Gives s' (.text "") s')
      (hproducers : x ≠ net.sink → ∀ y, net.DependsOn x y →
        (serve net (.evaluate y)).Gives s' (.text "") s')

/-- A node that is marked is answered with nothing, and the session stays as it is. -/
theorem serve_of_evaluated (hacyclic : s.acyclic = true) (hlive : (net.node? x).isSome)
    (h : s.evaluated.contains x = true) : (serve net (.evaluate x)).Gives s (.text "") s :=
  Action.gives_bind_pure.2 ⟨[], evaluate_of_evaluated hacyclic hlive h, rfl⟩

/-- Where the walk of a node has begun, the node and everything that it depends on stay marked. -/
theorem retried_of_marked (hw : net.WellFormed) (hs : net.Saturated s'.evaluated.members)
    (hlive : (net.node? x).isSome) (hx : s'.acyclic = true ∧ s'.evaluated.contains x = true)
    (hcause : ∃ name produced required, fault = .noPromotion name produced required) :
    Retried net x fault s' := by
  refine .dropped hcause (serve_of_evaluated hx.1 hlive hx.2) fun hne y hy => ?_
  exact serve_of_evaluated hx.1 (hw.isSome_of_dependsOn hlive hy)
    (hs.mem_of_dependsOn hw hx.2 hne hy)

/-- A failed request shows a cycle or a stale handle every time, and any other fault once. -/
theorem retried_of_saturated (hw : net.WellFormed) (hs : net.Saturated s.evaluated.members)
    (h : (serve net (.evaluate x)).Fails s fault s') : Retried net x fault s' := by
  replace h : (evaluate net x).Fails s fault s' := Action.fails_bind_pure.1 h
  have hs' : net.Saturated s'.evaluated.members := by
    rw [← h.2]
    exact saturated_evaluate hw x s hs
  unfold evaluate at h
  rcases Action.fails_bind.1 h with hensure | ⟨_, t, hensure, h⟩
  · -- The search comes upon a cycle, and leaves the session as it is.
    obtain ⟨hacyclic, hcheck⟩ := ensureAcyclic_fails hensure
    obtain ⟨p, node, -, hfault, -⟩ := checkAcyclic_eq_error hw hcheck
    have hsame := ensureAcyclic_fails_of_error hcheck hacyclic
    obtain rfl : s = s' := hsame.2.symm.trans hensure.2
    refine .refused (.inl ⟨node.id, hfault⟩) (Action.fails_bind_pure.2 ?_)
    exact Action.fails_bind.2 (.inl hsame)
  obtain ⟨rfl, -⟩ := ensureAcyclic_gives hensure
  rcases Action.fails_lift_bind.1 h with ⟨hget, rfl⟩ | ⟨node, hget, h⟩
  · -- The handle names nothing, which the search for cycles does not change.
    refine .refused (.inr (get_eq_error.1 hget).2) (Action.fails_bind_pure.2 ?_)
    refine Action.fails_bind.2 (.inr ⟨(), { s with acyclic := true }, ?_, ?_⟩)
    · exact Action.gives_getState_bind.2 (Action.gives_pure.2 ⟨rfl, rfl⟩)
    · exact Action.fails_lift_bind.2 (.inl ⟨hget, rfl⟩)
  have hlive : (net.node? x).isSome := isSome_node?_of_get hget
  split at h
  · rename_i hsink
    obtain rfl := (hw.isSink_iff (get_eq_ok.1 hget)).1 hsink
    replace h := Action.fails_getState_bind.1 h
    split at h
    · exact absurd h Action.not_fails_pure
    · replace h := Action.fails_setState_bind.1 h
      -- The sink was marked before the plan was written, and stays so.
      have hlasting : Lasting net _ := lasting_marked net.sink
      have hmarked := hlasting.planLines node (plan s.stage)
        { s with acyclic := true, evaluated := s.evaluated.insert net.sink } ⟨rfl, by simp⟩
      rw [h.2] at hmarked
      exact retried_of_marked hw hs' hlive hmarked (planLines_fails hw (get_eq_ok.1 hget) h).1
  · obtain ⟨out, evaluated, hvisits, hmembers, -, hstate⟩ :=
      visit_run hw hlive { s with acyclic := true }
    obtain rfl := hstate.symm.trans h.2
    -- The visit has marked the node before it failed.
    have hx : x ∈ evaluated.members := by
      rw [hmembers]
      exact hvisits.covers x List.mem_cons_self
    obtain ⟨y, hy, hfault⟩ := visit_fails hw hlive h
    have hcause := (statementOf_eq_error hw (hw.isSome_of_dependsOn hlive hy) hfault).1
    exact retried_of_marked hw hs' hlive ⟨rfl, hx⟩ hcause

end Session

namespace Network

/-- Whatever a session has been asked before, a request to compute a node that fails for a cycle or
    a stale handle fails again when it is made again; but one that fails for a promotion is then
    answered with nothing. -/
theorem Arises.retried {net : Network} (h : net.Arises) (requests : List Request) {x : Handle}
    {fault : Fault} {s' : Session}
    (hfails : (Session.serve net (.evaluate x)).Fails (Session.after net requests) fault s') :
    Session.Retried net x fault s' :=
  Session.retried_of_saturated h.wellFormed
    ((Session.served_after net requests).saturated h.wellFormed) hfails

/-- The function of vectors is refused, after the constant that it reads has been visited. -/
theorem fails_unpromoted : ∃ s', (Session.serve unpromoted (.evaluate ⟨3, 1⟩)).Fails .fresh
    (.noPromotion "gloss" .float .vec3) s' := by
  have h : unpromoted.Arises := (Arises.new { annotateSlots := true }).run (by decide +kernel)
  have hw := h.wellFormed
  have hreads : (unpromoted.node? ⟨3, 1⟩).map Node.producers = some [⟨2, 1⟩] := by decide +kernel
  have hnone : (unpromoted.node? ⟨2, 1⟩).map Node.producers = some [] := by decide +kernel
  obtain ⟨gloss, hgloss, hreads⟩ := Option.map_eq_some_iff.1 hreads
  obtain ⟨shine, hshine, hnone⟩ := Option.map_eq_some_iff.1 hnone
  -- The visit comes to the constant first, and to the function after it.
  have hbelow : Visits unpromoted (insert ⟨3, 1⟩ ∅) gloss.producers ([] ++ [⟨2, 1⟩]) := by
    rw [hreads]
    refine .enter (by simp) hshine ?_ .nil
    rw [hnone]
    exact .nil
  have hvisits : Visits unpromoted ∅ [⟨3, 1⟩] ([] ++ [⟨2, 1⟩] ++ [⟨3, 1⟩]) :=
    .enter (Set.notMem_empty _) hgloss hbelow .nil
  obtain ⟨out, _, hout, -, hresult, -⟩ :=
    Session.visit_run hw (Option.isSome_iff_exists.2 ⟨gloss, hgloss⟩)
      { Session.fresh with acyclic := true }
  have hempty : Visited.members Session.fresh.evaluated = ∅ := Visited.members_empty
  rw [show Session.evaluated { Session.fresh with acyclic := true } = Session.fresh.evaluated
    from rfl, hempty] at hout
  obtain rfl := hvisits.unique hout
  have hlines : unpromoted.statementLines [⟨2, 1⟩, ⟨3, 1⟩]
      = .error (.noPromotion "gloss" .float .vec3) := by
    rfl
  have hrun := (Session.evaluate_run_node hw acyclic_unpromoted hgloss (by decide +kernel) .fresh).1
  exact ⟨_, Action.fails_bind_pure.2 ⟨hrun.trans (hresult.trans hlines), rfl⟩⟩

/-- A link that cannot be promoted is reported once. -/
theorem retried_unpromoted : unpromoted.Arises
    ∧ ∃ s', (Session.serve unpromoted (.evaluate ⟨3, 1⟩)).Fails (Session.after unpromoted [])
        (.noPromotion "gloss" .float .vec3) s'
      ∧ Session.Retried unpromoted ⟨3, 1⟩ (.noPromotion "gloss" .float .vec3) s' := by
  have h : unpromoted.Arises := (Arises.new { annotateSlots := true }).run (by decide +kernel)
  obtain ⟨s', hfails⟩ := fails_unpromoted
  exact ⟨h, s', hfails, h.retried [] hfails⟩

/-- Asked again for the function, the session does not refuse it: it answers with nothing, and with
    nothing for the constant as well, whose statement it has never given out. -/
theorem dropped_unpromoted : unpromoted.Arises
    ∧ ∃ s', (Session.serve unpromoted (.evaluate ⟨3, 1⟩)).Fails (Session.after unpromoted [])
        (.noPromotion "gloss" .float .vec3) s'
      ∧ (¬ ∃ fault s'', (Session.serve unpromoted (.evaluate ⟨3, 1⟩)).Fails s' fault s'')
      ∧ (Session.serve unpromoted (.evaluate ⟨3, 1⟩)).Gives s' (.text "") s'
      ∧ (Session.serve unpromoted (.evaluate ⟨2, 1⟩)).Gives s' (.text "") s'
      ∧ Recursive.ownText unpromoted ⟨2, 1⟩ = .ok "shine = 1.0;\n" := by
  have h : unpromoted.Arises := (Arises.new { annotateSlots := true }).run (by decide +kernel)
  obtain ⟨s', hfails⟩ := fails_unpromoted
  have hsaturated := (Session.served_after unpromoted []).saturated h.wellFormed
  have hdepends : unpromoted.DependsOn ⟨3, 1⟩ ⟨2, 1⟩ := by
    have hlink : (unpromoted.node? ⟨3, 1⟩).bind (fun n => n.link? 0)
        = some ⟨⟨2, 1⟩, .value, 0⟩ := by decide +kernel
    obtain ⟨node, hn, hl⟩ := Option.bind_eq_some_iff.1 hlink
    exact .single (reads_of_link? hn hl)
  rcases Session.retried_of_saturated h.wellFormed hsaturated hfails with
    ⟨⟨id, hcause⟩ | hcause, -⟩ | ⟨-, hagain, hproducers⟩
  · cases hcause
  · cases hcause
  · refine ⟨h, s', hfails, ?_, hagain, hproducers (by decide +kernel) _ hdepends, ?_⟩
    · rintro ⟨fault, s'', hfault⟩
      exact hagain.not_fails hfault
    · decide +kernel

end Network

end MaterialNet
