import MaterialNet.Proofs.Compiling
import MaterialNet.Proofs.Listing
import MaterialNet.Proofs.Reaching

namespace MaterialNet

/-!
# What a stage collects

Declaring the nodes that a stage needs leaves their declarations in the session, one for each node
and in the order of the visit, and lists the uniforms among them that have not been listed before.

* `Network.Declared`, `Network.enlist` — the declaration of a node, and the nodes listed next
* `Session.Collects` — what declaring several nodes leaves in a session
* `Session.writeStage_collects` — what writing a stage leaves there
-/

namespace Network

variable {net : Network} {listed out : List Handle} {h : Handle} {n : Node}

/-- The node `h` has the declaration `d`. -/
def Declared (net : Network) (h : Handle) (d : Declaration) : Prop :=
  ∃ n, net.node? h = some n ∧ n.declaration? = some d

/-- The listed nodes after the nodes `out` have been declared in order: uniforms that were not
    listed before come last. -/
def enlist (net : Network) (listed out : List Handle) : List Handle :=
  out.foldl
    (fun listed h => if net.isUniform h = true ∧ h ∉ listed then listed ++ [h] else listed) listed

theorem enlist_cons (listed : List Handle) (h : Handle) (rest : List Handle) :
    net.enlist listed (h :: rest) = net.enlist (net.enlist listed [h]) rest := rfl

/-- Two lists are listed one after the other. -/
theorem enlist_append (listed first second : List Handle) :
    net.enlist listed (first ++ second) = net.enlist (net.enlist listed first) second :=
  List.foldl_append

/-- What is listed is not listed again. -/
theorem enlist_of_mem (hh : h ∈ listed) : net.enlist listed [h] = listed := by
  simp [enlist, hh]

/-- A new uniform comes to the end of the list. -/
theorem enlist_of_not_mem (hn : net.node? h = some n) (hu : n.storage = .uniform)
    (hh : h ∉ listed) : net.enlist listed [h] = listed ++ [h] := by
  simp [enlist, (isUniform_iff hn).2 hu, hh]

/-- What is not a uniform is not listed. -/
theorem enlist_of_ne_uniform (hn : net.node? h = some n) (hu : n.storage ≠ .uniform) :
    net.enlist listed [h] = listed := by
  have hf : ¬ net.isUniform h = true := fun ht => hu ((isUniform_iff hn).1 ht)
  simp [enlist, hf]

/-- Of nodes that are declared once, the uniforms that were not listed before are listed next. -/
theorem enlist_eq (hout : out.Nodup) :
    net.enlist listed out = listed ++ out.filter fun h => net.isUniform h ∧ h ∉ listed := by
  induction out generalizing listed with
  | nil => simp [enlist]
  | cons h rest ih =>
    obtain ⟨hh, hrest⟩ := List.nodup_cons.1 hout
    rw [enlist_cons, ih hrest]
    by_cases hnew : net.isUniform h = true ∧ h ∉ listed
    · -- The node itself does not come again.
      have hfilter : (rest.filter fun x => net.isUniform x ∧ x ∉ listed ++ [h])
          = rest.filter fun x => net.isUniform x ∧ x ∉ listed := by
        refine List.filter_congr fun x hx => ?_
        have hne : x ≠ h := fun he => hh (he ▸ hx)
        simp [hne]
      rw [show net.enlist listed [h] = listed ++ [h] by simp [enlist, hnew], hfilter,
        List.filter_cons_of_pos (by simpa using hnew), List.append_assoc, List.singleton_append]
    · rw [show net.enlist listed [h] = listed by simp only [enlist, List.foldl, if_neg hnew],
        List.filter_cons_of_neg (by simpa using hnew)]

end Network

namespace Session

open Network

variable {net : Network} {here : Set Handle} {s s' s₁ : Session} {h : Handle}
  {out out₁ out₂ : List Handle}

/-- On the way from `s` to `s'` the declarations of the nodes `out` have been collected, and the
    uniforms among them have been listed next to whatever was listed before. -/
structure Collects (net : Network) (s : Session) (out : List Handle) (s' : Session) : Prop where
  declarations : ∃ ds, s'.declarations.toList = s.declarations.toList ++ ds
    ∧ List.Forall₂ net.Declared out ds
  lists : ∀ listed, net.Lists listed s.manifest s.boundTextures →
    net.Lists (net.enlist listed out) s'.manifest s'.boundTextures

theorem Collects.nil : Collects net s [] s where
  declarations := ⟨[], by simp, .nil⟩
  lists _ hl := hl

/-- What two ways have collected is collected on the way through both. -/
theorem Collects.append (h₁ : Collects net s out₁ s₁) (h₂ : Collects net s₁ out₂ s') :
    Collects net s (out₁ ++ out₂) s' where
  declarations := by
    obtain ⟨ds₁, hds₁, hout₁⟩ := h₁.declarations
    obtain ⟨ds₂, hds₂, hout₂⟩ := h₂.declarations
    refine ⟨ds₁ ++ ds₂, ?_, List.rel_append hout₁ hout₂⟩
    rw [hds₂, hds₁, List.append_assoc]
  lists listed hl := by
    rw [enlist_append]
    exact h₂.lists _ (h₁.lists listed hl)

/-! ### Declaring nodes -/

section Declaring

variable (hw : net.WellFormed) (hfits : net.Fits)
include hw hfits

/-- Declaring a node collects its declaration, and lists it if it is a uniform. -/
theorem declareNode_collects (hmem : h ∈ net.order.toList)
    (hg : (declareNode net h).Gives s () s') : Collects net s [h] s' := by
  unfold declareNode at hg
  obtain ⟨n, hn, hg⟩ := Action.gives_lift_bind.1 hg
  obtain ⟨_, s₁, h₁, hg⟩ := Action.gives_bind.1 hg
  obtain ⟨_, s₂, h₂, h₃⟩ := Action.gives_bind.1 hg
  rw [get_eq_ok] at hn
  have hs₂ := collect_gives h₂
  rw [(takeNames_gives h₁).1] at hs₂
  -- A node of the network other than the sink has a value, and so a declaration.
  have hsink : n.isSink = false := hw.isSink_eq_false hn ((hw.mem_order h).1 hmem).1
  have htype := Node.isSome_type? hsink
  obtain ⟨type, htype'⟩ := Option.isSome_iff_exists.1 htype
  have hd : n.declaration? = some ⟨n.storage, type, n.id⟩ := by simp [Node.declaration?, htype']
  have hdeclared : List.Forall₂ net.Declared [h] [⟨n.storage, type, n.id⟩] :=
    .cons ⟨n, hn, hd⟩ .nil
  have hdeclarations : s₂.declarations.toList
      = s.declarations.toList ++ [⟨n.storage, type, n.id⟩] := by
    rw [hs₂, hd]
    simp
  -- Only a uniform node touches the manifest, and it does so unless it is listed.
  split at h₃
  · rename_i hu
    have hframe := (listUniform_gives htype h₃).1
    refine ⟨⟨_, ?_, hdeclared⟩, fun listed hl => ?_⟩
    · rw [hframe]
      exact hdeclarations
    · have hl₂ : net.Lists listed s₂.manifest s₂.boundTextures := by
        rw [hs₂]
        exact hl
      rcases listUniform_cases hw hfits hl₂ hn htype hu with
        ⟨hh, hg⟩ | ⟨-, -, -, hf⟩ | ⟨hh, manifest, boundTextures, hg, hl'⟩
      · obtain ⟨-, rfl⟩ := hg.unique h₃
        rwa [enlist_of_mem hh]
      · exact absurd hf h₃.not_fails
      · obtain ⟨-, rfl⟩ := hg.unique h₃
        rwa [enlist_of_not_mem hn hu hh]
  · rename_i hu
    obtain ⟨-, rfl⟩ := Action.gives_pure.1 h₃
    refine ⟨⟨_, hdeclarations, hdeclared⟩, fun listed hl => ?_⟩
    rw [enlist_of_ne_uniform hn hu, hs₂]
    exact hl

/-- Several nodes are collected in their order. -/
theorem declareNodes_collects (hmem : ∀ h ∈ out, h ∈ net.order.toList)
    (hg : (declareNodes net out).Gives s () s') : Collects net s out s' := by
  induction out generalizing s with
  | nil =>
    obtain ⟨-, rfl⟩ := Action.gives_pure.1 hg
    exact .nil
  | cons h rest ih =>
    obtain ⟨_, s₁, h₁, h₂⟩ := Action.gives_bind.1 hg
    have hc₁ := declareNode_collects hw hfits (hmem h List.mem_cons_self) h₁
    exact hc₁.append (ih (fun x hx => hmem x (List.mem_cons_of_mem _ hx)) h₂)

/-- Declaring a root collects what it depends on and has not been declared. -/
theorem declare_collects {root : Handle} (ho : net.Owned here s.owners)
    (hroot : root ∈ net.order.toList) (hg : (declare net root).Gives s () s') :
    ∃ out, Declares net here s [root] out s' ∧ Collects net s out s' := by
  obtain ⟨out, hd⟩ := declare_gives hw hfits ho hroot hg
  refine ⟨out, hd, ?_⟩
  unfold declare at hg
  replace hg := Action.gives_getState_bind.1 hg
  obtain ⟨⟨found, declared⟩, hwalk, hg⟩ := Action.gives_lift_bind.1 hg
  replace hg := Action.gives_setState_bind.1 hg
  obtain ⟨hvisits, -⟩ := visits_of_postOrder hwalk
  -- The walk lists the nodes that declaring is known to go through.
  obtain rfl := hvisits.unique hd.visits
  obtain ⟨hds, hl⟩ := declareNodes_collects hw hfits
    (hvisits.mem_order hw (by simpa using hroot)) hg
  exact ⟨hds, hl⟩

/-! ### Declaring what feeds the slots -/

variable {sink : Node} (hsink : net.node? net.sink = some sink)
include hsink

/-- Declaring slot by slot collects the nodes of a visit from all of their producers. -/
theorem declareSlots_collects {slots : List Slot} (ho : net.Owned here s.owners)
    (hg : (declareSlots net sink slots).Gives s () s') :
    ∃ out, Declares net here s (slotProducers sink slots) out s' ∧ Collects net s out s' := by
  -- Slot by slot: what has been declared so far belongs to the nodes behind us.
  induction slots generalizing s here with
  | nil =>
    obtain ⟨-, rfl⟩ := Action.gives_pure.1 hg
    exact ⟨[], .nil ho, .nil⟩
  | cons slot rest ih =>
    obtain ⟨_, s₁, h₁, h₂⟩ := Action.gives_bind.1 hg
    have hfirst : ∃ out, Declares net here s (slotProducers sink [slot]) out s₁
        ∧ Collects net s out s₁ := by
      unfold declareSlot at h₁
      cases hlink : sink.link? slot.index with
      | none =>
        simp only [hlink] at h₁
        obtain ⟨-, rfl⟩ := Action.gives_pure.1 h₁
        rw [slotProducers_of_unfed hlink]
        exact ⟨[], .nil ho, .nil⟩
      | some link =>
        have hsome := slotProducers_of_fed hlink
        have hmem : link.producer ∈ slotProducers sink [slot] := by simp [hsome]
        simp only [hlink] at h₁
        rw [hsome]
        exact declare_collects hw hfits ho (hw.mem_order_of_slotProducers hsink _ hmem) h₁
    obtain ⟨out₁, hd₁, hc₁⟩ := hfirst
    obtain ⟨out₂, hd₂, hc₂⟩ := ih hd₁.owned h₂
    rw [slotProducers_cons]
    exact ⟨out₁ ++ out₂, hd₁.append hd₂, hc₁.append hc₂⟩

omit hsink in
/-- A stage that is written has collected the declarations of the nodes that it needs, in the order
    of a visit from its slots, and has listed the uniforms among them. -/
theorem writeStage_collects {stage : Stage} {body : List Line}
    (h : (writeStage net stage).Gives s body s') :
    ∃ sink out, net.node? net.sink = some sink
      ∧ Visits net ∅ (slotProducers sink stage.slots) out
      ∧ List.Forall₂ net.Declared out s'.declarations.toList
      ∧ ∀ listed, net.Lists listed s.manifest s.boundTextures →
        net.Lists (net.enlist listed out) s'.manifest s'.boundTextures := by
  unfold writeStage at h
  obtain ⟨_, s₁, hensure, h⟩ := Action.gives_bind.1 h
  obtain ⟨rfl, -⟩ := ensureAcyclic_gives hensure
  replace h := Action.gives_modifyState_bind.1 h
  obtain ⟨sink, hget, h⟩ := Action.gives_lift_bind.1 h
  obtain ⟨_, s₂, hdeclare, h⟩ := Action.gives_bind.1 h
  obtain ⟨lines, s₃, hevaluate, h⟩ := Action.gives_bind.1 h
  replace h := Action.gives_getState_bind.1 h
  replace h := Action.gives_note_bind.1 h
  obtain ⟨rfl, rfl⟩ := Action.gives_pure.1 h
  have hsink := get_eq_ok.1 hget
  obtain ⟨out, hd, hc⟩ := declareSlots_collects hw hfits hsink owned_empty hdeclare
  have hempty : s₂.evaluated = .empty := by
    have hr := hd.recorded
    unfold Recorded at hr
    rw [hr]
    rfl
  -- Writing the lines changes neither declarations nor manifest.
  obtain ⟨-, evaluated, rfl⟩ := evaluate_sink_gives hw hsink hempty hevaluate
  obtain ⟨⟨ds, hds, hdeclared⟩, hl⟩ := hc
  rw [show (enterStage { s with acyclic := true } stage).declarations.toList = [] from rfl,
    List.nil_append] at hds
  exact ⟨sink, out, hsink, visits_of_enterStage hd.visits, hds ▸ hdeclared, hl⟩

end Declaring

end Session

end MaterialNet
