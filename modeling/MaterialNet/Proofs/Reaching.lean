import MaterialNet.Network.Reachable
import MaterialNet.Proofs.Acyclic
import MaterialNet.Proofs.Visits

namespace MaterialNet.Network

/-!
# The nodes that a stage needs

The nodes that a stage needs are listed slot by slot.  The list is that of one visit from the
producers of the slots, and there is one for every stage as soon as there is no cycle.

* `visits_of_feeding` — what is listed slot by slot is one visit
* `WellFormed.reachable_eq_ok_iff` — when the nodes of a stage are listed, and which they are
-/

variable {net : Network} {sink : Node} {stage : Stage} {out : List Handle}

/-- What the slots need is listed by one visit of their producers. -/
theorem visits_of_feeding {slots : List Slot} {visited : Visited}
    (h : net.feeding sink visited slots = .ok out) :
    Visits net visited.members (slotProducers sink slots) out := by
  induction slots generalizing visited out with
  | nil =>
    cases h
    exact .nil
  | cons slot rest ih =>
    rw [slotProducers_cons]
    unfold feeding at h
    -- A slot without a link is passed over.
    split at h
    · rename_i hl
      rw [slotProducers_of_unfed hl]
      exact ih h
    · rename_i link hl
      rw [slotProducers_of_fed hl]
      obtain ⟨⟨found, visited'⟩, hwalk, h⟩ := bind_ok_iff.1 h
      obtain ⟨others, hothers, h⟩ := bind_ok_iff.1 h
      cases h
      obtain ⟨hvisits, hmembers⟩ := visits_of_postOrder hwalk
      have hrest := ih hothers
      rw [hmembers] at hrest
      exact hvisits.append hrest

section WellFormed

variable (hw : net.WellFormed) (hsink : net.node? net.sink = some sink)
include hw hsink

/-- The producers of slots are live, so no walk from them fails. -/
theorem exists_feeding (slots : List Slot) (visited : Visited) :
    ∃ out, net.feeding sink visited slots = .ok out := by
  induction slots generalizing visited with
  | nil => exact ⟨[], rfl⟩
  | cons slot rest ih =>
    unfold feeding
    split
    · exact ih visited
    · rename_i link hl
      have hlive := hw.isSome_of_reads (reads_of_link? hsink hl)
      obtain ⟨found, visited', hwalk⟩ := exists_postOrder hw hlive visited
      obtain ⟨others, hothers⟩ := ih visited'
      refine ⟨found.toList ++ others, bind_ok_iff.2 ⟨_, hwalk, ?_⟩⟩
      exact bind_ok_iff.2 ⟨others, hothers, rfl⟩

/-- Without a cycle, the nodes of a stage are those that a visit from its slots lists. -/
theorem WellFormed.reachable_eq_ok_iff :
    net.reachable stage = .ok out ↔
      net.Acyclic ∧ Visits net ∅ (slotProducers sink stage.slots) out := by
  have hvisits {out : List Handle} (h : net.feeding sink .empty stage.slots = .ok out) :
      Visits net ∅ (slotProducers sink stage.slots) out := by
    have hv := visits_of_feeding h
    rwa [Visited.members_empty] at hv
  constructor
  · intro h
    obtain ⟨_, hcheck, h⟩ := bind_ok_iff.1 h
    obtain ⟨sink', hget, h⟩ := bind_ok_iff.1 h
    obtain rfl := Option.some.inj (hsink.symm.trans (get_eq_ok.1 hget))
    exact ⟨hw.checkAcyclic_eq_ok_iff.1 hcheck, hvisits h⟩
  · rintro ⟨hacyclic, h⟩
    -- The walks from the slots end in any case, and a visit lists what they list.
    obtain ⟨found, hfound⟩ := exists_feeding hw hsink stage.slots .empty
    obtain rfl := (hvisits hfound).unique h
    refine bind_ok_iff.2 ⟨(), hw.checkAcyclic_eq_ok_iff.2 hacyclic, ?_⟩
    exact bind_ok_iff.2 ⟨sink, get_eq_ok.2 hsink, hfound⟩

end WellFormed

/-- A network with a cycle has no stage whose nodes are listed. -/
theorem reachable_eq_error {fault : Fault} (h : net.checkAcyclic = .error fault) :
    net.reachable stage = .error fault := by
  unfold reachable
  rw [h]
  rfl

end MaterialNet.Network
