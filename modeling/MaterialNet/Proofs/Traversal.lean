import MaterialNet.Proofs.Likeness

namespace MaterialNet.Network

/-!
# Walks that go on from what has been seen

A walk passes over whatever has been seen before, and over everything that is only reached through
it.  So it lists the nodes that are reached through new nodes alone, whether or not there are
cycles; a later walk with the set that it leaves goes on from there.

* `ReachesAround` — a path to producers that avoids a set of nodes
* `Visits.mem_iff_reachesAround` — what a visit lists
* `Traversed`, `Arises.traverses` — what a walk lists and marks
-/

open Relation

variable {net : Network} {seen seen' : Set Handle} {pending out : List Handle} {h p q : Handle}

/-- Links lead from a node to a producer, and neither of them nor any node between them is in the
    set. -/
def ReachesAround (net : Network) (seen : Set Handle) (h p : Handle) : Prop :=
  h ∉ seen ∧ ReflTransGen (fun x q => net.Reads x q ∧ q ∉ seen) h p

namespace ReachesAround

/-- A path around more nodes is one around fewer. -/
theorem mono (hp : net.ReachesAround seen' h p) (hsub : seen ⊆ seen') :
    net.ReachesAround seen h p := by
  refine ⟨fun hh => hp.1 (hsub hh), ?_⟩
  exact ReflTransGen.mono (fun _ _ hr => ⟨hr.1, fun hq => hr.2 (hsub hq)⟩) _ _ hp.2

/-- A path may begin with one more node. -/
theorem head (hh : h ∉ seen) (hr : net.Reads h q) (hp : net.ReachesAround seen q p) :
    net.ReachesAround seen h p :=
  ⟨hh, .head ⟨hr, hp.1⟩ hp.2⟩

end ReachesAround

namespace Visits

/-- Every listed node is reached from one that was to be visited, around all that had been seen. -/
theorem reachesAround (hw : net.WellFormed) (hv : Visits net seen pending out) :
    ∀ x ∈ out, ∃ q ∈ pending, net.ReachesAround seen q x := by
  induction hv with
  | nil => simp
  | skip _ _ ih =>
    intro x hx
    obtain ⟨q, hq, hreach⟩ := ih x hx
    exact ⟨q, List.mem_cons_of_mem _ hq, hreach⟩
  | @enter seen p node rest below out hp hn _ _ ihb ihr =>
    -- While the visit goes on, more has been seen, so its paths avoid what had been seen before.
    intro x hx
    rcases List.mem_append.1 hx with hx | hx
    · obtain ⟨q, hq, hreach⟩ := ihb x hx
      have hreach' := hreach.mono (Set.subset_insert p seen)
      exact ⟨p, List.mem_cons_self, hreach'.head hp ((hw.reads_iff hn).2 hq)⟩
    · rcases List.mem_cons.1 hx with rfl | hx
      · exact ⟨x, List.mem_cons_self, hp, .refl⟩
      · obtain ⟨q, hq, hreach⟩ := ihr x hx
        have hsub : seen ⊆ insert p seen ∪ {x | x ∈ below} :=
          (Set.subset_insert p seen).trans Set.subset_union_left
        exact ⟨q, List.mem_cons_of_mem _ hq, hreach.mono hsub⟩

/-- A visit lists exactly the nodes that are reached around what had been seen. -/
theorem mem_iff_reachesAround (hw : net.WellFormed) (hv : Visits net seen pending out)
    {x : Handle} : x ∈ out ↔ ∃ q ∈ pending, net.ReachesAround seen q x := by
  refine ⟨hv.reachesAround hw x, ?_⟩
  rintro ⟨q, hq, hseen, hpath⟩
  -- Along the path each node is listed, since the one before it is and it has not been seen.
  induction hpath with
  | refl => exact (hv.covers q hq).resolve_left hseen
  | tail _ hr ih =>
    obtain ⟨hreads, hnew⟩ := hr
    obtain ⟨node, hn, -⟩ := id hreads
    exact (hv.closed _ ih node hn _ ((hw.reads_iff hn).1 hreads)).resolve_left hnew

end Visits

/-- A walk from a node, with some nodes seen before, lists some nodes and leaves a set of seen
    nodes. -/
structure Traversed (net : Network) (root : Handle) (visited : Visited) (out : Array Handle)
    (visited' : Visited) : Prop where
  /-- No node is listed twice. -/
  nodup : out.toList.Nodup
  /-- The nodes are listed that are reached from the root around those seen before. -/
  mem_iff : ∀ h, h ∈ out ↔ net.ReachesAround visited.members root h
  /-- They are the nodes that are marked. -/
  marked : ∀ h, visited'.contains h = true ↔ visited.contains h = true ∨ h ∈ out
  /-- Without cycles, each producer of a listed node was seen before or is listed earlier. -/
  ordered : net.Acyclic → ∀ before h after, out.toList = before ++ h :: after →
    ∀ p, net.Reads h p → visited.contains p = true ∨ p ∈ before

/-- From every live node of a network that arises by calls, with cycles or without them, and with
    any nodes seen before, a walk comes to its end. -/
theorem Arises.traverses (hnet : net.Arises) {root : Handle} (hroot : (net.node? root).isSome)
    (visited : Visited) :
    ∃ out visited', net.postOrder root visited = .ok (out, visited')
      ∧ net.Traversed root visited out visited' := by
  have hw := hnet.wellFormed
  obtain ⟨out, visited', hwalk⟩ := exists_postOrder hw hroot visited
  obtain ⟨hvisits, hmembers⟩ := visits_of_postOrder hwalk
  refine ⟨out, visited', hwalk, hvisits.nodup.1, fun h => ?_, fun h => ?_, fun hacyclic => ?_⟩
  · rw [← Array.mem_toList_iff, hvisits.mem_iff_reachesAround hw]
    simp
  · rw [← Visited.mem_members, hmembers]
    simp [Visited.mem_members]
  · exact hvisits.ordered hw hacyclic

/-- Cycles that share their nodes, a node that reads itself, and a constant that alone feeds the
    sink. -/
def tangle : Network :=
  (new {}).run
    [.add ⟨"ebb", .inMain, .binary .multiply .float, []⟩,
      .add ⟨"flow", .inMain, .binary .multiply .float, []⟩,
      .add ⟨"eddy", .inMain, .binary .multiply .float, []⟩,
      .add ⟨"shine", .inMain, .constant (.float .one), []⟩,
      .connect ⟨2, 1⟩ ⟨⟨3, 1⟩, .value, 0⟩,
      .connect ⟨2, 1⟩ ⟨⟨4, 1⟩, .value, 1⟩,
      .connect ⟨3, 1⟩ ⟨⟨4, 1⟩, .value, 0⟩,
      .connect ⟨3, 1⟩ ⟨⟨2, 1⟩, .value, 1⟩,
      .connect ⟨4, 1⟩ ⟨⟨4, 1⟩, .value, 0⟩,
      .connect ⟨4, 1⟩ ⟨⟨5, 1⟩, .value, 1⟩,
      .connectSlot .metallic ⟨5, 1⟩ .value]

/-- A walk among cycles, some of whose nodes have been visited, and one without any. -/
theorem traverses_histories :
    tangle.Arises ∧ (tangle.node? ⟨2, 1⟩).isSome
      ∧ (∃ out visited', tangle.postOrder ⟨2, 1⟩ (Std.TreeSet.empty.insert ⟨5, 1⟩)
        = .ok (out, visited')
          ∧ tangle.Traversed ⟨2, 1⟩ (Std.TreeSet.empty.insert ⟨5, 1⟩) out visited')
      ∧ plainHistory.Arises ∧ (plainHistory.node? plainHistory.sink).isSome ∧ plainHistory.Acyclic
      ∧ ∃ out visited', plainHistory.postOrder plainHistory.sink .empty = .ok (out, visited')
        ∧ plainHistory.Traversed plainHistory.sink .empty out visited' := by
  have h : tangle.Arises := (Arises.new {}).run (by decide +kernel)
  have hlive : (tangle.node? ⟨2, 1⟩).isSome := by decide +kernel
  have h' : plainHistory.Arises := (Arises.new {}).run (by decide +kernel)
  have hsink : (plainHistory.node? plainHistory.sink).isSome := by decide +kernel
  have hranked : plainHistory.ranked historyRank = true := by decide +kernel
  exact ⟨h, hlive, h.traverses hlive _, h', hsink, acyclic_of_ranked hranked,
    h'.traverses hsink .empty⟩

end MaterialNet.Network
