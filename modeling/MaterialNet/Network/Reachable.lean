import MaterialNet.Network.Walk

namespace MaterialNet

/-!
# Cycles, and what a stage needs

A network is searched for cycles depth first.  The nodes on the way from the start of the search
to the current node are *open*; a producer that is open closes a cycle.  Nodes left behind are
*closed* and are not entered again.

* `Network.search` — one search from a start
* `Network.checkAcyclic` — refuses a network with a cycle anywhere, also where no slot reads it
* `Network.reachable` — the nodes that the slots of a stage depend on, producers before consumers
-/

namespace Network

/-- Goes on with a search. The stack holds the open nodes, the current one on top. -/
def search (net : Network) (stack : List Frame) (opened closed : Visited) : Except Fault Visited :=
  match stack with
  | [] => .ok closed
  | ⟨h, []⟩ :: rest => net.search rest (opened.erase h) (closed.insert h)
  | ⟨h, p :: pending⟩ :: rest =>
    if closed.contains p then net.search (⟨h, pending⟩ :: rest) opened closed
    else
      match _hg : net.get p with
      | .error fault => .error fault
      | .ok node =>
        if opened.contains p then .error (.cyclic node.id)
        else
          net.search (⟨p, node.producers⟩ :: ⟨h, pending⟩ :: rest) (opened.insert p) closed
termination_by (net.unseen fun h => opened.contains h || closed.contains h, stackWeight stack)
decreasing_by
  -- A node that is finished goes from open to closed, so it stays seen.
  · have hle : net.unseen (fun x => (opened.erase h).contains x || (closed.insert h).contains x)
        ≤ net.unseen fun x => opened.contains x || closed.contains x := by
      refine unseen_le fun x hx => ?_
      simp only [Std.TreeSet.contains_erase, Std.TreeSet.contains_insert, Bool.or_eq_true,
        Bool.and_eq_true, bne_iff_ne] at hx ⊢
      by_cases hc : compare h x = .eq
      · exact .inr (.inl (by simp [hc]))
      · rcases hx with hx | hx
        · exact .inl ⟨hc, hx⟩
        · exact .inr (.inr hx)
    rcases Nat.lt_or_eq_of_le hle with hlt | heq
    · exact .left _ _ hlt
    · rw [heq]; right; simp [stackWeight]
  -- A closed producer is taken off the stack.
  · right; simp [stackWeight]
  -- A producer that is neither open nor closed is seen for the first time.
  · left
    rename_i hc ho
    refine unseen_lt (fun x hx => ?_) (isSome_node?_of_get _hg) ?_ ?_
    · simp only [Std.TreeSet.contains_insert, Bool.or_eq_true] at hx ⊢
      rcases hx with hx | hx
      · exact .inl (.inr hx)
      · exact .inr hx
    · simp [Bool.eq_false_iff.2 hc, Bool.eq_false_iff.2 ho]
    · simp

/-- Searches from every node in turn that is still not closed. -/
def checkAcyclicFrom (net : Network) (closed : Visited) : List Handle → Except Fault Unit
  | [] => .ok ()
  | start :: rest =>
    if closed.contains start then net.checkAcyclicFrom closed rest
    else do
      let node ← net.get start
      let closed ← net.search [⟨start, node.producers⟩] (Std.TreeSet.empty.insert start) closed
      net.checkAcyclicFrom closed rest

/-- Refuses a network in which some node depends on itself. -/
def checkAcyclic (net : Network) : Except Fault Unit :=
  net.checkAcyclicFrom .empty net.handlesInOrder

/-! ### What a stage needs -/

/-- The nodes outside `visited` that the given slots of the sink depend on, slot by slot. -/
def feeding (net : Network) (sink : Node) (visited : Visited) :
    List Slot → Except Fault (List Handle)
  | [] => .ok []
  | slot :: rest =>
    match sink.link? slot.index with
    | none => net.feeding sink visited rest
    | some link => do
      let (found, visited) ← net.postOrder link.producer visited
      let others ← net.feeding sink visited rest
      .ok (found.toList ++ others)

/-- The nodes that a stage needs, producers before consumers; a network with a cycle anywhere is
    refused. -/
def reachable (net : Network) (stage : Stage) : Except Fault (List Handle) := do
  net.checkAcyclic
  let sink ← net.get net.sink
  net.feeding sink .empty stage.slots

end Network

end MaterialNet
