import MaterialNet.Proofs.Abreast
import MaterialNet.Proofs.Acyclic
import MaterialNet.Session.Program

namespace MaterialNet.Session

/-!
# What a session keeps between stages

Entering a stage starts everything over but the manifest, the texture units and the knowledge that
there is no cycle.  Within a stage, two sessions that agree on the stage do the same; only listing
uniforms and searching for cycles look at what has been kept.

* `Session.Kept`, `Session.InStage` — what is kept, and agreement on the stage
* `Session.Paced` — how the kept parts of two sessions have to be related
* `Paced.evaluate`, `Paced.assemble` — then the two sessions stay abreast
-/

open MaterialNet.Action (Abreast)

/-- What a session keeps when a stage is entered. -/
structure Kept where
  acyclic : Bool
  manifest : Manifest
  boundTextures : UInt32

/-- What a session has kept. -/
def kept (s : Session) : Kept := ⟨s.acyclic, s.manifest, s.boundTextures⟩

/-- What two sessions have kept is related. -/
def Behind (B : Kept → Kept → Prop) (s t : Session) : Prop := B s.kept t.kept

/-- Two sessions agree on the current stage, and what they have kept is related. -/
structure InStage (B : Kept → Kept → Prop) (s t : Session) : Prop where
  stage : s.stage = t.stage
  evaluated : s.evaluated = t.evaluated
  declared : s.declared = t.declared
  owners : s.owners = t.owners
  declarations : s.declarations = t.declarations
  kept : Behind B s t

/-- Where a stage is entered, two sessions come to agree on it. -/
theorem InStage.enter {B : Kept → Kept → Prop} {s t : Session} (h : Behind B s t) (stage : Stage) :
    InStage B (s.enterStage stage) (t.enterStage stage) :=
  ⟨rfl, rfl, rfl, rfl, rfl, h⟩

/-- The runs of an action in two sessions that agree on the stage stay abreast. -/
abbrev Together {α : Type} (excused : Fault → Prop) (B : Kept → Kept → Prop)
    (x : Action Session α) : Prop :=
  ∀ s t, InStage B s t → Abreast excused (Behind B) (InStage B) x x s t

variable {net : Network} {excused : Fault → Prop} {B : Kept → Kept → Prop} {s t : Session}

/-! ### Actions that look at the stage only -/

/-- Whether a name is free depends on the names of the stage. -/
theorem takeName_together (name : String) (owner : Handle) :
    Together excused B (takeName name owner) := by
  intro s t h
  refine .getState_bind ?_
  -- The owners belong to the stage, so both sessions find the same one.
  rw [h.owners]
  split
  · split
    · exact .pure () h
    · exact .lift _ h h.kept
  · exact .setState { h with owners := rfl }

/-- The same for the one or two names of a node. -/
theorem takeNames_together (n : Node) (owner : Handle) :
    Together excused B (takeNames n owner) := by
  intro s t h
  refine .bind (takeName_together _ _ s t h) fun _ s t h => ?_
  split
  · exact .pure () h
  · exact takeName_together _ _ s t h

/-- A declaration is collected into the declarations of the stage. -/
theorem collect_together (n : Node) : Together excused B (collect n) := by
  intro s t h
  unfold collect
  split
  · exact .modifyState { h with declarations := congrArg (Array.push · _) h.declarations }
  · exact .pure () h

/-- Statements do not look at the session. -/
theorem statements_together (hs : List Handle) : Together excused B (statements net hs) := by
  induction hs with
  | nil => exact fun s t h => .pure [] h
  | cons x rest ih =>
    refine fun s t h => .lift_bind h.kept fun _ _ => .bind (.note _ _ h) fun _ s t h => ?_
    exact .bind (ih s t h) fun _ s t h => .pure _ h

/-- What a visit still has to compute depends on what the stage has computed. -/
theorem visit_together (x : Handle) : Together excused B (visit net x) := by
  intro s t h
  refine .getState_bind ?_
  -- The walk starts from what the stage has computed, which is the same in both.
  rw [h.evaluated]
  refine .lift_bind h.kept fun found _ => ?_
  exact .bind (.setState { h with evaluated := rfl }) fun _ s t h => statements_together _ s t h

/-- A plan is written by visits and by reading links, one step after the other. -/
theorem planLines_together (sink : Node) (steps : List Step) :
    Together excused B (planLines net sink steps) := by
  induction steps with
  | nil => exact fun s t h => .pure [] h
  | cons step rest ih =>
    refine fun s t h => .bind ?_ fun _ s t h => .bind (ih s t h) fun _ s t h => .pure _ h
    -- The closing line is fixed; a slot is announced, visited and read.
    cases step with
    | composite => exact .pure _ h
    | slot slot =>
      refine .bind ?_ fun _ s t h => .pure _ h
      unfold slotLines
      split
      · exact .bind (.note _ _ h) fun _ s t h => .pure _ h
      · refine .bind (visit_together _ s t h) fun _ s t h => ?_
        exact .lift_bind h.kept fun _ _ => .pure _ h

/-! ### Searching for cycles -/

/-- Without a cycle the search ends well, or is not needed, and either way the session knows. -/
theorem ensureAcyclic_gives_of_acyclic (hw : net.WellFormed) (h : net.Acyclic) :
    (ensureAcyclic net).Gives s () { s with acyclic := true } := by
  refine Action.gives_getState_bind.2 ?_
  split
  · rename_i hs
    exact Action.gives_pure.2 ⟨rfl, by rw [← hs]⟩
  · exact Action.gives_lift_bind.2 ⟨(), hw.checkAcyclic_eq_ok_iff.2 h, Action.gives_setState.2 rfl⟩

/-- A session that does not know yet finds the fault of the search, and is left as it is. -/
theorem ensureAcyclic_fails_of_error {fault : Fault} (h : net.checkAcyclic = .error fault)
    (hs : s.acyclic = false) : (ensureAcyclic net).Fails s fault s := by
  refine Action.fails_getState_bind.2 ?_
  rw [if_neg (Bool.eq_false_iff.1 hs)]
  exact Action.fails_lift_bind.2 (.inl ⟨h, rfl⟩)

/-! ### Actions that look at what is kept -/

/-- What two sessions of a network have kept may be related as `B` says: both are right about
    cycles, a search for cycles keeps the relation, and so does listing a uniform, unless this fails
    in the first session with a fault that is excused. -/
structure Paced (net : Network) (excused : Fault → Prop) (B : Kept → Kept → Prop) : Prop where
  trusts : ∀ k l, B k l → (k.acyclic = true → net.Acyclic) ∧ (l.acyclic = true → net.Acyclic)
  search : ∀ k l, B k l → net.Acyclic → B { k with acyclic := true } { l with acyclic := true }
  list : ∀ h n, net.node? h = some n → n.type?.isSome → n.storage = .uniform →
    Together excused B (listUniform net n)

section Paced

variable (hp : Paced net excused B)
include hp

/-- Searching for cycles keeps two sessions abreast: what they have kept about cycles is right, so
    it does not matter if only one of them searches. -/
theorem Paced.ensureAcyclic (hw : net.WellFormed) {R : Session → Session → Prop}
    (h : Behind B s t)
    (hset : net.Acyclic → R { s with acyclic := true } { t with acyclic := true }) :
    Abreast excused (Behind B) R (ensureAcyclic net) (ensureAcyclic net) s t := by
  by_cases hacyclic : net.Acyclic
  · exact .inl ⟨(), _, _, ensureAcyclic_gives_of_acyclic hw hacyclic,
      ensureAcyclic_gives_of_acyclic hw hacyclic, hset hacyclic⟩
  · -- Neither session says that there is no cycle, so both search.
    obtain ⟨hs, ht⟩ := hp.trusts _ _ h
    have hs : s.acyclic = false := Bool.eq_false_iff.2 fun hs' => hacyclic (hs hs')
    have ht : t.acyclic = false := Bool.eq_false_iff.2 fun ht' => hacyclic (ht ht')
    cases hc : net.checkAcyclic with
    | ok => exact absurd (hw.checkAcyclic_eq_ok_iff.1 hc) hacyclic
    | error fault =>
      exact .inr (.inl ⟨fault, s, t, ensureAcyclic_fails_of_error hc hs,
        ensureAcyclic_fails_of_error hc ht, h⟩)

/-- The condition on listing uniforms, for all nodes that declaring meets. -/
theorem Paced.listUniform {h : Handle} {n : Node} (hn : net.node? h = some n)
    (hu : n.storage = .uniform) : Together excused B (listUniform net n) := by
  intro s t hst
  by_cases htype : n.type?.isSome
  · exact hp.list h n hn htype hu s t hst
  · -- What has no value is not listed.
    rw [Bool.not_eq_true, Option.isSome_eq_false_iff, Option.isNone_iff_eq_none] at htype
    refine .getState_bind ?_
    simp only [htype, ite_self]
    exact .pure () hst

/-- Declaring a node takes names, collects a declaration and may list a uniform. -/
theorem Paced.declareNode (h : Handle) : Together excused B (declareNode net h) := by
  refine fun s t hst => .lift_bind hst.kept fun n hn => ?_
  refine .bind (takeNames_together n h s t hst) fun _ s t hst => ?_
  refine .bind (collect_together n s t hst) fun _ s t hst => ?_
  split
  · rename_i hu
    exact hp.listUniform (Network.get_eq_ok.1 hn) hu s t hst
  · exact .pure () hst

/-- Several nodes are declared one after the other. -/
theorem Paced.declareNodes (hs : List Handle) : Together excused B (declareNodes net hs) := by
  induction hs with
  | nil => exact fun s t h => .pure () h
  | cons x rest ih => exact fun s t h => .bind (hp.declareNode x s t h) fun _ s t h => ih s t h

/-- The slots of a stage are declared one after the other; which nodes are new depends on what the
    stage has declared. -/
theorem Paced.declareSlots (sink : Node) (slots : List Slot) :
    Together excused B (declareSlots net sink slots) := by
  induction slots with
  | nil => exact fun s t h => .pure () h
  | cons slot rest ih =>
    refine fun s t h => .bind ?_ fun _ s t h => ih s t h
    unfold declareSlot
    split
    · refine .getState_bind ?_
      -- The walk starts from what the stage has declared, which is the same in both.
      rw [h.declared]
      refine .lift_bind h.kept fun found _ => ?_
      exact .bind (.setState { h with declared := rfl }) fun _ s t h => hp.declareNodes _ s t h
    · exact .pure () h

/-! ### Requests for text -/

variable (hw : net.WellFormed)
include hw

/-- A request for a node's text keeps two sessions abreast. -/
theorem Paced.evaluate (x : Handle) : Together excused B (evaluate net x) := by
  intro s t h
  have hensure := hp.ensureAcyclic hw (R := InStage B) h.kept fun ha =>
    { h with kept := hp.search _ _ h.kept ha }
  refine .bind hensure fun _ s t h => .lift_bind h.kept fun node _ => ?_
  -- The sink is written by the plan of the stage; any other node is visited.
  split
  · refine .getState_bind ?_
    rw [h.evaluated, h.stage]
    split
    · exact .pure [] h
    · refine .bind (R := InStage B) (.setState { h with stage := rfl, evaluated := rfl })
        fun _ s t h => ?_
      exact planLines_together _ _ s t h
  · exact visit_together _ s t h

/-- Two sessions need not agree on a stage before it is written: entering it makes them. -/
theorem Paced.writeStage (stage : Stage) (h : Behind B s t) :
    Abreast excused (Behind B) (InStage B) (writeStage net stage) (writeStage net stage) s t := by
  have hensure := hp.ensureAcyclic hw (R := Behind B) h fun ha => hp.search _ _ h ha
  refine .bind hensure fun _ s t h => ?_
  -- Entering the stage is where related sessions become sessions that agree.
  refine .bind (R := InStage B) (.modifyState (.enter h stage)) fun _ s t h => ?_
  refine .lift_bind h.kept fun sink _ => ?_
  refine .bind (hp.declareSlots _ _ s t h) fun _ s t h => ?_
  refine .bind (hp.evaluate hw _ s t h) fun _ s t h => .getState_bind ?_
  exact .bind (.note _ _ h) fun _ s t h => .pure _ h

/-- Two sessions that have kept related things assemble a stage abreast, whatever else they hold. -/
theorem Paced.assemble (stage : Stage) (h : Behind B s t) :
    Abreast excused (Behind B) (InStage B) (assemble net stage) (assemble net stage) s t := by
  refine .bind (hp.writeStage hw stage h) fun body s t h => .getState_bind ?_
  rw [h.declarations]
  split
  · exact .pure _ h
  · exact .lift _ h h.kept

end Paced

end MaterialNet.Session
