import MaterialNet.Proofs.Compiling
import MaterialNet.Proofs.Reaching
import MaterialNet.Proofs.Rounds
import MaterialNet.Proofs.Traversal

namespace MaterialNet

/-!
# Everything that is asked of a network has an answer

The walks of a network and its search for cycles end after a number of rounds that the network
alone determines.  So whatever a session has been asked before, it answers a request or refuses it
for a cause that lies in the network or in the handle of the request.

* `Action.AnswersOr` — an action answers in every state, or fails in one of certain ways
* `Network.Defect`, `Session.answersOr_compile` and its like — the ways in which requests fail
* `Network.Answering`, `Arises.answering` — loops and requests all come to their end
-/

open Relation

/-! ### Actions that answer -/

namespace Action

variable {σ α β : Type} {P Q : Fault → Prop} {x : Action σ α} {f : α → Action σ β}

/-- In every state, the action answers or fails with a fault of the given kind. -/
def AnswersOr (P : Fault → Prop) (x : Action σ α) : Prop :=
  ∀ s, (∃ a s', x.Gives s a s') ∨ ∃ fault s', x.Fails s fault s' ∧ P fault

/-- What an action may fail with decides, since it has an outcome in every state. -/
theorem answersOr_of_fails (h : ∀ s fault s', x.Fails s fault s' → P fault) : x.AnswersOr P := by
  intro s
  cases hr : (x.run s).result with
  | ok a => exact .inl ⟨a, _, hr, rfl⟩
  | error fault => exact .inr ⟨fault, _, ⟨hr, rfl⟩, h _ fault _ ⟨hr, rfl⟩⟩

namespace AnswersOr

/-- An action that answers or fails in one way also does so for a wider kind of faults. -/
theorem mono (h : x.AnswersOr P) (hPQ : ∀ fault, P fault → Q fault) : x.AnswersOr Q := by
  intro s
  rcases h s with hgives | ⟨fault, s', hf, hp⟩
  · exact .inl hgives
  · exact .inr ⟨fault, s', hf, hPQ fault hp⟩

/-- A sequence answers or fails as its parts do. -/
theorem bind (hx : x.AnswersOr P) (hf : ∀ a, (f a).AnswersOr P) : (x >>= f).AnswersOr P := by
  intro s
  rcases hx s with ⟨a, s', hgives⟩ | ⟨fault, s', hfails, hp⟩
  · rcases hf a s' with ⟨b, s'', hb⟩ | ⟨fault, s'', hfault, hp⟩
    · exact .inl ⟨b, s'', gives_bind.2 ⟨a, s', hgives, hb⟩⟩
    · exact .inr ⟨fault, s'', fails_bind.2 (.inr ⟨a, s', hgives, hfault⟩), hp⟩
  · exact .inr ⟨fault, s', fails_bind.2 (.inl hfails), hp⟩

/-- What is given first need only answer where it is defined. -/
theorem lift_bind {r : Except Fault α} (hr : ∀ fault, r = .error fault → P fault)
    (hf : ∀ a, r = .ok a → (f a).AnswersOr P) : (lift r >>= f).AnswersOr P := by
  cases r with
  | error fault =>
    exact fun s => .inr ⟨fault, s, fails_lift_bind.2 (.inl ⟨rfl, rfl⟩), hr fault rfl⟩
  | ok a => exact hf a rfl

theorem pure (a : α) : (Pure.pure a : Action σ α).AnswersOr P := fun s =>
  .inl ⟨a, s, gives_pure.2 ⟨rfl, rfl⟩⟩

theorem getState : (Action.getState : Action σ σ).AnswersOr P := fun s =>
  .inl ⟨s, s, gives_getState.2 ⟨rfl, rfl⟩⟩

theorem setState (t : σ) : (Action.setState t).AnswersOr P := fun _ =>
  .inl ⟨(), t, gives_setState.2 rfl⟩

theorem modifyState (g : σ → σ) : (Action.modifyState g).AnswersOr P := fun s =>
  .inl ⟨(), g s, gives_modifyState.2 rfl⟩

theorem note (events : List Event) : (Action.note events : Action σ Unit).AnswersOr P := fun s =>
  .inl ⟨(), s, gives_note.2 rfl⟩

end AnswersOr

end Action

/-! ### Requests -/

namespace Network

/-- The fault names a node that depends on itself. -/
def NamesCycle (net : Network) (fault : Fault) : Prop :=
  ∃ h n, net.node? h = some n ∧ TransGen net.Reads h h ∧ fault = .cyclic n.id

/-- What may be wrong with a network that is asked for its programs: a node depends on itself, or
    what a program needs does not go together. -/
def Defect (net : Network) (fault : Fault) : Prop :=
  net.NamesCycle fault ∨ Session.Incoherence fault

/-- The fault of the search names a node that depends on itself. -/
theorem namesCycle_of_checkAcyclic {net : Network} {fault : Fault} (hw : net.WellFormed)
    (h : net.checkAcyclic = .error fault) : net.NamesCycle fault := by
  obtain ⟨p, n, hn, hfault, hcycle⟩ := checkAcyclic_eq_error hw h
  exact ⟨p, n, hn, hcycle, hfault⟩

end Network

namespace Session

open MaterialNet.Action Network

variable {net : Network} {h : Handle} {n : Node}

/-- Names are taken unless one of them belongs to another node. -/
theorem answersOr_takeNames : (takeNames n h).AnswersOr Incoherence :=
  answersOr_of_fails fun _ _ _ hf => by
    obtain ⟨name, rfl, -⟩ := takeNames_fails hf
    exact .name name

/-- A uniform is listed unless the texture units have run out. -/
theorem answersOr_listUniform : (listUniform net n).AnswersOr Incoherence :=
  answersOr_of_fails fun _ _ _ hf => by
    rw [(listUniform_fails hf).1]
    exact .unit n.id

/-- A live node is declared unless its name or its unit cannot be had. -/
theorem answersOr_declareNode (hlive : (net.node? h).isSome) :
    (declareNode net h).AnswersOr Incoherence := by
  refine .lift_bind (fun fault hf => ?_) fun n _ => ?_
  · rw [(get_eq_error.1 hf).1] at hlive
    cases hlive
  · refine answersOr_takeNames.bind fun _ => ?_
    refine (answersOr_of_fails fun _ _ _ hf => (not_fails_collect hf).elim).bind fun _ => ?_
    split
    · exact answersOr_listUniform
    · exact .pure ()

/-- So are several live nodes. -/
theorem answersOr_declareNodes {hs : List Handle} (hlive : ∀ h ∈ hs, (net.node? h).isSome) :
    (declareNodes net hs).AnswersOr Incoherence := by
  induction hs with
  | nil => exact .pure ()
  | cons h rest ih =>
    obtain ⟨hh, hrest⟩ := List.forall_mem_cons.1 hlive
    exact (answersOr_declareNode hh).bind fun _ => ih hrest

section WellFormed

variable (hw : net.WellFormed)
include hw

/-- The search for cycles is answered, or names a cycle. -/
theorem answersOr_ensureAcyclic : (ensureAcyclic net).AnswersOr net.NamesCycle :=
  answersOr_of_fails fun _ _ _ hf => namesCycle_of_checkAcyclic hw (ensureAcyclic_fails hf).2

/-- A walk that starts at a live node does not fail, so declaring what it lists is what may. -/
theorem answersOr_declare (hlive : (net.node? h).isSome) :
    (declare net h).AnswersOr Incoherence := by
  refine AnswersOr.getState.bind fun s => ?_
  obtain ⟨found, declared, hwalk⟩ := exists_postOrder hw hlive s.declared
  refine .lift_bind (fun fault hf => ?_) fun r hr => ?_
  · rw [hwalk] at hf
    cases hf
  · -- All that the walk has found is live, since the root is.
    obtain rfl := Except.ok.inj (hwalk.symm.trans hr)
    refine (AnswersOr.setState _).bind fun _ => answersOr_declareNodes fun x hx => ?_
    obtain ⟨p, hp, hd⟩ := (visits_of_postOrder hwalk).1.sound hw x hx
    rw [List.mem_singleton.1 hp] at hd
    exact hw.isSome_of_dependsOn hlive hd

/-- What a live node depends on is computed, unless a value cannot be promoted. -/
theorem answersOr_visit (hlive : (net.node? h).isSome) : (visit net h).AnswersOr Incoherence :=
  answersOr_of_fails fun _ _ _ hf => by
    obtain ⟨x, hd, hs⟩ := visit_fails hw hlive hf
    obtain ⟨⟨name, produced, required, rfl⟩, -⟩ :=
      statementOf_eq_error hw (hw.isSome_of_dependsOn hlive hd) hs
    exact .promotion name produced required

section Sink

variable {sink : Node} (hsink : net.node? net.sink = some sink)
include hsink

/-- What feeds the slots is live, so it is declared or does not go together. -/
theorem answersOr_declareSlots (slots : List Slot) :
    (declareSlots net sink slots).AnswersOr Incoherence := by
  induction slots with
  | nil => exact .pure ()
  | cons slot rest ih =>
    refine AnswersOr.bind ?_ fun _ => ih
    unfold declareSlot
    split
    · rename_i link hl
      exact answersOr_declare hw (hw.isSome_of_reads (reads_of_link? hsink hl))
    · exact .pure ()

/-- A plan is written, unless a value cannot be promoted. -/
theorem answersOr_planLines (steps : List Step) :
    (planLines net sink steps).AnswersOr Incoherence :=
  answersOr_of_fails fun _ _ _ hf => by
    obtain ⟨⟨name, produced, required, rfl⟩, -⟩ := planLines_fails hw hsink hf
    exact .promotion name produced required

end Sink

/-- Without a defect of the network, a session evaluates every live node. -/
theorem answersOr_evaluate (hlive : (net.node? h).isSome) :
    (evaluate net h).AnswersOr net.Defect := by
  refine ((answersOr_ensureAcyclic hw).mono fun _ => .inl).bind fun _ => ?_
  refine .lift_bind (fun fault hf => ?_) fun n hn => ?_
  · rw [(get_eq_error.1 hf).1] at hlive
    cases hlive
  replace hn := get_eq_ok.1 hn
  -- The sink is written by its plan, once for each stage; any other node is visited.
  split
  · rename_i hsink
    obtain rfl := (hw.isSink_iff hn).1 hsink
    refine AnswersOr.getState.bind fun s => ?_
    split
    · exact .pure []
    · refine (AnswersOr.setState _).bind fun _ => ?_
      exact (answersOr_planLines hw hn _).mono fun _ => .inr
  · exact (answersOr_visit hw hlive).mono fun _ => .inr

/-- A stage is written unless the network has a defect. -/
theorem answersOr_writeStage (stage : Stage) : (writeStage net stage).AnswersOr net.Defect := by
  obtain ⟨sink, hsink, -⟩ := hw.sink_live
  refine ((answersOr_ensureAcyclic hw).mono fun _ => .inl).bind fun _ => ?_
  refine (AnswersOr.modifyState _).bind fun _ => ?_
  refine .lift_bind (fun fault hf => ?_) fun sink' hget => ?_
  · rw [get_eq_ok.2 hsink] at hf
    cases hf
  obtain rfl := Option.some.inj (hsink.symm.trans (get_eq_ok.1 hget))
  refine ((answersOr_declareSlots hw hsink _).mono fun _ => .inr).bind fun _ => ?_
  refine (answersOr_evaluate hw (by simp [hsink])).bind fun body => ?_
  exact AnswersOr.getState.bind fun _ => (AnswersOr.note _).bind fun _ => .pure body

/-- A program is assembled unless the network has a defect. -/
theorem answersOr_assemble (stage : Stage) : (assemble net stage).AnswersOr net.Defect :=
  answersOr_of_fails fun s _ _ hf => by
    -- Rendering does not fail, so a program fails where its stage does.
    obtain ⟨hfault, rfl⟩ := assemble_fails hf
    rcases answersOr_writeStage hw stage s with ⟨body, s', hbody, -⟩ | ⟨fault, s', ⟨hw, -⟩, hdefect⟩
    · rw [hfault] at hbody
      cases hbody
    · obtain rfl := Except.error.inj (hfault.symm.trans hw)
      exact hdefect

/-- Both programs are compiled unless the network has a defect. -/
theorem answersOr_compile : (compile net).AnswersOr net.Defect := by
  refine ((answersOr_ensureAcyclic hw).mono fun _ => .inl).bind fun _ => ?_
  refine (answersOr_assemble hw _).bind fun _ => (answersOr_assemble hw _).bind fun _ => ?_
  exact AnswersOr.getState.bind fun _ => (AnswersOr.note _).bind fun _ => .pure _

end WellFormed

/-- Every session refuses a handle that names nothing, unless it refuses the network. -/
theorem evaluate_fails_of_stale (hw : net.WellFormed) (hnone : net.node? h = none) (s : Session) :
    ∃ fault s', (evaluate net h).Fails s fault s'
      ∧ (net.NamesCycle fault ∨ fault = .staleHandle h) := by
  -- The search for cycles comes first, and the handle is looked up after it.
  rcases answersOr_ensureAcyclic hw s with ⟨u, s', hgives⟩ | ⟨fault, s', hfails, hcycle⟩
  · refine ⟨.staleHandle h, s', fails_bind.2 (.inr ⟨u, s', hgives, ?_⟩), .inr rfl⟩
    exact fails_lift_bind.2 (.inl ⟨get_eq_error.2 ⟨hnone, rfl⟩, rfl⟩)
  · exact ⟨fault, s', fails_bind.2 (.inl hfails), .inl hcycle⟩

end Session

/-! ### Loops and requests -/

namespace Network

open Session

variable {net : Network}

/-- The nodes of a stage are listed, or the network is refused for a cycle. -/
theorem WellFormed.reachable_answers (hw : net.WellFormed) (stage : Stage) :
    (∃ out, net.reachable stage = .ok out)
      ∨ ∃ fault, net.reachable stage = .error fault ∧ net.NamesCycle fault := by
  cases hcheck : net.checkAcyclic with
  | error fault =>
    exact .inr ⟨fault, reachable_eq_error hcheck, namesCycle_of_checkAcyclic hw hcheck⟩
  | ok u =>
    obtain ⟨sink, hsink, -⟩ := hw.sink_live
    obtain ⟨out, hout⟩ := exists_feeding hw hsink stage.slots .empty
    have hvisits := visits_of_feeding hout
    rw [Visited.members_empty] at hvisits
    exact .inl ⟨out, (hw.reachable_eq_ok_iff hsink).2 ⟨hw.checkAcyclic_eq_ok_iff.1 hcheck, hvisits⟩⟩

/-- The loops over a network come to their ends, and so do the requests of a session.  The bounds on
    the rounds depend on the network alone. -/
structure Answering (net : Network) : Prop where
  /-- Whatever its root and whatever has been seen before, a walk ends with the answer of
      `postOrder`. -/
  walk_ends : ∀ root visited n, net.effort < n →
    rounds net.walkRound n (walkStart root visited) = .ends (net.postOrder root visited)
  /-- It never pushes a node twice. -/
  walk_once : ∀ root visited n s,
    rounds net.walkRound n (walkStart root visited) = .goesOn s → s.pushed.Nodup
  /-- The search for cycles ends with the answer of `checkAcyclic`. -/
  search_ends : ∀ n, net.effort + net.handlesInOrder.length < n →
    rounds net.searchRound n net.searchStart = .ends net.checkAcyclic
  /-- It never pushes a node twice, also from different starts. -/
  search_once : ∀ n s, rounds net.searchRound n net.searchStart = .goesOn s → s.pushed.Nodup
  /-- A walk from a live root succeeds. -/
  walk_answers : ∀ root visited, (net.node? root).isSome →
    ∃ r, net.postOrder root visited = .ok r
  /-- The nodes of a stage are listed unless there is a cycle. -/
  reachable : ∀ stage, (∃ out, net.reachable stage = .ok out)
    ∨ ∃ fault, net.reachable stage = .error fault ∧ net.NamesCycle fault
  /-- In every state of a session the search is answered, -/
  check : (ensureAcyclic net).AnswersOr net.NamesCycle
  /-- the program of each stage is assembled or refused for a defect, -/
  assemble : ∀ stage, (Session.assemble net stage).AnswersOr net.Defect
  /-- every node is evaluated or refused for one, -/
  evaluate : ∀ h, (net.node? h).isSome → (Session.evaluate net h).AnswersOr net.Defect
  /-- both programs are compiled or refused for one, -/
  compile : (Session.compile net).AnswersOr net.Defect
  /-- and a handle that names nothing is refused. -/
  stale : ∀ h, net.node? h = none → ∀ s, ∃ fault s', (Session.evaluate net h).Fails s fault s'
    ∧ (net.NamesCycle fault ∨ fault = .staleHandle h)

/-- Every network that arises by calls has its loops end and its requests answered, whatever cycles
    it has and whatever does not reach its sink. -/
theorem Arises.answering (h : net.Arises) : net.Answering := by
  have hw := h.wellFormed
  refine ⟨fun root visited n hn => hw.rounds_walkRound root visited hn,
    fun root visited n s hs => hw.nodup_pushed_walk root visited hs,
    fun n hn => hw.rounds_searchRound hn, fun n s hs => hw.nodup_pushed_search hs,
    fun root visited hroot => ?_, hw.reachable_answers, answersOr_ensureAcyclic hw,
    answersOr_assemble hw, fun x hx => answersOr_evaluate hw hx,
    answersOr_compile hw, fun x hx => evaluate_fails_of_stale hw hx⟩
  obtain ⟨found, visited', hwalk⟩ := exists_postOrder hw hroot visited
  exact ⟨_, hwalk⟩

/-- A network with cycles on the way to its sink, and beside it, is answered as well. -/
theorem answering_tangle : tangle.Arises ∧ tangle.Answering := by
  have h : tangle.Arises := (Arises.new {}).run (by decide +kernel)
  exact ⟨h, h.answering⟩

end Network

end MaterialNet
