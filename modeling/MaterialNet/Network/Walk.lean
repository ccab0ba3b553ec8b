import Std.Data.TreeSet
import MaterialNet.Network.Basic

namespace MaterialNet

/-!
# Walks along the producers

A walk goes depth first from a consumer to its producers, with a stack of its own, so that the
depth of a network is no limit.

* `Visited` — sets of nodes that a walk has seen
* `Network.postOrder` — a node and everything that it depends on, producers first
-/

/-- A set of nodes. -/
abbrev Visited := Std.TreeSet Handle

/-- A node whose producers are being visited: the node, and the producers that remain. -/
structure Frame where
  handle : Handle
  pending : List Handle
deriving DecidableEq, Repr

/-- The visits that the frames of a stack still hold: their producers and their ends. -/
def stackWeight : List Frame → Nat
  | [] => 0
  | f :: rest => f.pending.length + 1 + stackWeight rest

namespace Network

/-! ### Nodes that a walk has not reached -/

/-- The number of nodes of which `seen` does not hold. -/
def unseen (net : Network) (seen : Handle → Bool) : Nat :=
  net.arena.handles.countP fun h => !seen h

/-- Seeing one more node leaves no more unseen. -/
theorem unseen_le {net : Network} {seen seen' : Handle → Bool}
    (h : ∀ x, seen x = true → seen' x = true) : net.unseen seen' ≤ net.unseen seen := by
  unfold unseen
  apply List.countP_mono_left
  intro x _ hx
  cases hs : seen x
  · rfl
  · simp [h x hs] at hx

/-- Seeing a node for the first time leaves fewer unseen. -/
theorem unseen_lt {net : Network} {seen seen' : Handle → Bool} {p : Handle}
    (h : ∀ x, seen x = true → seen' x = true) (hp : (net.node? p).isSome)
    (hs : seen p = false) (hs' : seen' p = true) : net.unseen seen' < net.unseen seen := by
  have hm : p ∈ net.arena.handles := (net.arena.mem_handles p).2 hp
  -- Split the handles at `p`: on either side nothing is lost, and `p` itself stops counting.
  obtain ⟨before, after, hl⟩ := List.append_of_mem hm
  have mono (l : List Handle) : l.countP (fun x => !seen' x) ≤ l.countP fun x => !seen x := by
    apply List.countP_mono_left
    intro x _ hx
    cases hsx : seen x
    · rfl
    · simp [h x hsx] at hx
  have := mono before
  have := mono after
  simp only [unseen, hl, List.countP_append, List.countP_cons, hs, hs', Bool.not_true,
    Bool.not_false]
  simp only [Bool.false_eq_true, if_true, if_false]
  omega

theorem isSome_node?_of_get {net : Network} {h : Handle} {node : Node}
    (hg : net.get h = .ok node) : (net.node? h).isSome := by
  unfold get at hg
  split at hg
  · simp_all
  · cases hg

/-! ### Producers first -/

/-- Goes on with a walk: a producer seen for the first time is marked and entered, and a node
    whose producers are all done is finished. -/
def walk (net : Network) (stack : List Frame) (visited : Visited) (finished : Array Handle) :
    Except Fault (Array Handle × Visited) :=
  match stack with
  | [] => .ok (finished, visited)
  | ⟨h, []⟩ :: rest => net.walk rest visited (finished.push h)
  | ⟨h, p :: pending⟩ :: rest =>
    if visited.contains p then net.walk (⟨h, pending⟩ :: rest) visited finished
    else
      match _hg : net.get p with
      | .error fault => .error fault
      | .ok node =>
        net.walk (⟨p, node.producers⟩ :: ⟨h, pending⟩ :: rest) (visited.insert p) finished
termination_by (net.unseen fun h => visited.contains h, stackWeight stack)
decreasing_by
  -- A finished node or a producer seen before leaves less on the stack.
  · right; simp [stackWeight]
  · right; simp [stackWeight]
  -- A new producer is one unseen node fewer, however much it puts on the stack.
  · left
    rename_i hv
    refine unseen_lt (fun x hx => ?_) (isSome_node?_of_get _hg) (Bool.eq_false_iff.2 hv) ?_
    · simp only [Std.TreeSet.contains_insert, hx, Bool.or_true]
    · simp

/-- The nodes that `root` depends on, and itself, that are not in `visited` and are reached
    without passing through it; producers come before their consumers.  All of them are added to
    `visited`. -/
def postOrder (net : Network) (root : Handle) (visited : Visited) :
    Except Fault (Array Handle × Visited) := do
  if visited.contains root then .ok (#[], visited)
  else
    let node ← net.get root
    net.walk [⟨root, node.producers⟩] (visited.insert root) #[]

end Network

end MaterialNet
