import MaterialNet.Proofs.Acyclic
import MaterialNet.Proofs.Visits

namespace MaterialNet

/-!
# Walks and searches, round by round

A walk and a search for cycles are loops.  Each round looks at the top of a stack, which holds the
nodes that have been entered, each with the number of its next input.  So a node comes to the top
once for each of its inputs and once more to be left.

The load that is left is what the nodes that have not been seen would take, and what is left of the
nodes on the stack.  Every round lessens it, so there is an end, also where there are cycles.

* `Round`, `rounds`, `rounds_eq_ends` — loops, and how they come to an end
* `Network.turn`, `Network.exists_turn` — what the top of a stack asks for
* `Network.walkRound`, `WellFormed.rounds_walkRound` — a walk
* `Network.searchRound`, `WellFormed.rounds_searchRound` — a search for cycles
-/

/-! ### Loops -/

/-- What a round of a loop comes to: an answer, or the state for the next round. -/
inductive Round (σ α : Type) where
  | ends (answer : α)
  | goesOn (state : σ)

section Rounds

variable {σ α : Type}

/-- So many rounds of a loop, or fewer if it ends before. -/
def rounds (round : σ → Round σ α) : Nat → σ → Round σ α
  | 0, s => .goesOn s
  | n + 1, s =>
    match round s with
    | .ends a => .ends a
    | .goesOn s' => rounds round n s'

/-- A round ends with the answer that is due, or it goes on to a state with the same answer due, a
    smaller load, and the invariant. -/
inductive Advances (inv : σ → Prop) (load : σ → Nat) (due : σ → α) (s : σ) : Round σ α → Prop where
  | ends {a : α} (hdue : a = due s) : Advances inv load due s (.ends a)
  | goesOn {s' : σ} (hinv : inv s') (hload : load s' < load s) (hdue : due s' = due s) :
      Advances inv load due s (.goesOn s')

variable {round : σ → Round σ α} {inv : σ → Prop} {load : σ → Nat} {due : σ → α}
  (hround : ∀ s, inv s → Advances inv load due s (round s))
include hround

/-- A loop all of whose rounds advance ends with the answer that is due. -/
theorem rounds_eq_ends {n : Nat} {s : σ} (hs : inv s) (hn : load s < n) :
    rounds round n s = .ends (due s) := by
  induction n generalizing s with
  | zero => exact absurd hn (Nat.not_lt_zero _)
  | succ n ih =>
    unfold rounds
    have hadvance := hround s hs
    cases h : round s with
    | ends a =>
      rw [h] at hadvance
      cases hadvance with
      | ends hdue => rw [hdue]
    | goesOn s' =>
      rw [h] at hadvance
      cases hadvance with
      -- The load is smaller, so the rounds that are left suffice.
      | goesOn hinv hload hdue => exact hdue ▸ ih hinv (by omega)

/-- The invariant holds as long as the loop goes on. -/
theorem inv_of_rounds {n : Nat} {s s' : σ} (hs : inv s) (h : rounds round n s = .goesOn s') :
    inv s' := by
  induction n generalizing s with
  | zero =>
    cases h
    exact hs
  | succ n ih =>
    unfold rounds at h
    have hadvance := hround s hs
    split at h
    · cases h
    · rename_i s₁ hs₁
      rw [hs₁] at hadvance
      cases hadvance with
      | goesOn hinv _ _ => exact ih hinv h

end Rounds

/-! ### Sets of nodes -/

namespace Visited

variable {seen : Visited} {h x : Handle}

theorem contains_insert_iff :
    (seen.insert h).contains x = true ↔ h = x ∨ seen.contains x = true := by
  rw [Std.TreeSet.contains_insert, Bool.or_eq_true, beq_iff_eq, Std.compare_eq_iff_eq]

theorem contains_erase_iff :
    (seen.erase h).contains x = true ↔ h ≠ x ∧ seen.contains x = true := by
  rw [Std.TreeSet.contains_erase, Bool.and_eq_true, bne_iff_ne, Ne, Std.compare_eq_iff_eq]

end Visited

/-! ### Inputs -/

namespace Node

variable {n : Node} {i : Nat}

/-- The producers of a node, in the order of its inputs, from a given input on. -/
def producersFrom (n : Node) (i : Nat) : List Handle :=
  (List.range' i (n.inputCount - i)).filterMap fun input => (n.link? input).map Link.producer

theorem producersFrom_zero : n.producersFrom 0 = n.producers := by
  rw [producersFrom, producers, Nat.sub_zero, List.range_eq_range']

theorem producersFrom_of_le (h : n.inputCount ≤ i) : n.producersFrom i = [] := by
  rw [producersFrom, Nat.sub_eq_zero_of_le h]
  rfl

/-- The input itself comes before those that follow. -/
theorem producersFrom_of_lt (h : i < n.inputCount) :
    n.producersFrom i = ((n.link? i).map Link.producer).toList ++ n.producersFrom (i + 1) := by
  obtain ⟨k, hk⟩ : ∃ k, n.inputCount - i = k + 1 := ⟨n.inputCount - i - 1, by omega⟩
  have hk' : n.inputCount - (i + 1) = k := by omega
  rw [producersFrom, producersFrom, hk, hk', List.range'_succ, List.filterMap_cons]
  cases (n.link? i).map Link.producer <;> rfl

end Node

/-- A node on the stack of a loop, and the number of its next input. -/
structure Entry where
  handle : Handle
  next : Nat
deriving DecidableEq, Repr

namespace Network

variable {net : Network} {stack : List Entry} {h p : Handle} {node : Node}
  {seen seen' : Handle → Bool}

/-- The nodes of a stack. -/
def stacked (stack : List Entry) : List Handle := stack.map Entry.handle

/-- An entry as a frame: the producers that remain are those that feed the inputs from the next one
    on. -/
def frame (net : Network) (e : Entry) : Frame :=
  ⟨e.handle, ((net.node? e.handle).map fun n => n.producersFrom e.next).getD []⟩

/-- A stack as frames. -/
def frames (net : Network) (stack : List Entry) : List Frame := stack.map net.frame

theorem frames_nil : net.frames [] = [] := rfl

theorem frames_cons (hn : net.node? h = some node) (i : Nat) :
    net.frames (⟨h, i⟩ :: stack) = ⟨h, node.producersFrom i⟩ :: net.frames stack := by
  simp [frames, frame, hn]

/-- An entry that has just been pushed has all producers left. -/
theorem frames_push (hn : net.node? h = some node) :
    net.frames (⟨h, 0⟩ :: stack) = ⟨h, node.producers⟩ :: net.frames stack := by
  rw [frames_cons hn, Node.producersFrom_zero]

/-! ### Loads -/

/-- The number of inputs of the node that a handle names. -/
def inputs (net : Network) (h : Handle) : Nat := ((net.node? h).map Node.inputCount).getD 0

/-- The rounds that the nodes of a list take once they are on a stack, without those of which `seen`
    holds. -/
def loadOf (net : Network) (seen : Handle → Bool) : List Handle → Nat
  | [] => 0
  | h :: rest => (if seen h then 0 else net.inputs h + 1) + net.loadOf seen rest

/-- The rounds that the nodes take that have not been seen. -/
def unseenLoad (net : Network) (seen : Handle → Bool) : Nat := net.loadOf seen net.arena.handles

/-- The rounds that the entries of a stack still take. -/
def stackLoad (net : Network) : List Entry → Nat
  | [] => 0
  | e :: rest => net.inputs e.handle - e.next + 1 + net.stackLoad rest

/-- The rounds that all nodes together take. -/
def effort (net : Network) : Nat := net.unseenLoad fun _ => false

theorem inputs_eq (hn : net.node? h = some node) : net.inputs h = node.inputCount := by
  simp [inputs, hn]

theorem loadOf_append (hs hs' : List Handle) :
    net.loadOf seen (hs ++ hs') = net.loadOf seen hs + net.loadOf seen hs' := by
  induction hs with
  | nil => simp [loadOf]
  | cons h rest ih => rw [List.cons_append, loadOf, loadOf, ih, Nat.add_assoc]

section Seen

variable (hle : ∀ x, seen x = true → seen' x = true)
include hle

/-- The more has been seen, the less is left. -/
theorem loadOf_le (hs : List Handle) : net.loadOf seen' hs ≤ net.loadOf seen hs := by
  induction hs with
  | nil => exact Nat.le_refl _
  | cons h rest ih =>
    simp only [loadOf]
    refine Nat.add_le_add ?_ ih
    cases hs : seen h with
    | true => simp [hle h hs]
    | false => split <;> simp

/-- A load gets no larger when more has been seen. -/
theorem unseenLoad_le : net.unseenLoad seen' ≤ net.unseenLoad seen := loadOf_le hle _

/-- A node that is seen for the first time no longer counts. -/
theorem unseenLoad_lt (hp : (net.node? p).isSome) (hs : seen p = false) (hs' : seen' p = true) :
    net.unseenLoad seen' + (net.inputs p + 1) ≤ net.unseenLoad seen := by
  -- Split the handles at `p`: on either side nothing is added, and `p` itself stops counting.
  obtain ⟨before, after, hl⟩ := List.append_of_mem ((net.arena.mem_handles p).2 hp)
  have hbefore := @loadOf_le net _ _ hle before
  have hafter := @loadOf_le net _ _ hle after
  simp only [unseenLoad, hl, loadOf_append, loadOf, hs, hs', if_true, Bool.false_eq_true, if_false]
  omega

end Seen

/-! ### The top of a stack -/

/-- What the top of a stack asks for. -/
inductive Turn where
  /-- The stack is empty. -/
  | rest
  /-- The top node has no input left, so it is taken off the stack. -/
  | leave (h : Handle) (below : List Entry)
  /-- Nothing feeds the next input. -/
  | pass (stack : List Entry)
  /-- A producer feeds the next input. -/
  | meet (p : Handle) (stack : List Entry)

/-- Looks at the next input of the top node. -/
def turn (net : Network) : List Entry → Except Fault Turn
  | [] => .ok .rest
  | top :: below => do
    let node ← net.get top.handle
    if top.next < node.inputCount then
      match node.link? top.next with
      | none => .ok (.pass (⟨top.handle, top.next + 1⟩ :: below))
      | some link => .ok (.meet link.producer (⟨top.handle, top.next + 1⟩ :: below))
    else .ok (.leave top.handle below)

/-- What a turn makes of a stack: of its nodes, of its frames and of its load. -/
inductive Turned (net : Network) (stack : List Entry) : Turn → Prop where
  | rest (hstack : stack = []) : Turned net stack .rest
  | leave {h : Handle} {below : List Entry} (hstacked : stacked stack = h :: stacked below)
      (hframes : net.frames stack = ⟨h, []⟩ :: net.frames below)
      (hload : net.stackLoad below < net.stackLoad stack) : Turned net stack (.leave h below)
  | pass {stack' : List Entry} (hstacked : stacked stack' = stacked stack)
      (hframes : net.frames stack' = net.frames stack)
      (hload : net.stackLoad stack' < net.stackLoad stack) : Turned net stack (.pass stack')
  | meet {h p : Handle} {pending : List Handle} {rest : List Frame} {stack' : List Entry}
      (hstacked : stacked stack' = stacked stack)
      (hframes : net.frames stack = ⟨h, p :: pending⟩ :: rest)
      (hframes' : net.frames stack' = ⟨h, pending⟩ :: rest)
      (hload : net.stackLoad stack' < net.stackLoad stack) (hp : (net.node? p).isSome) :
      Turned net stack (.meet p stack')

/-- The nodes of a stack are live. -/
def Live (net : Network) (stack : List Entry) : Prop := ∀ h ∈ stacked stack, (net.node? h).isSome

/-- The top of a live stack asks for something. -/
theorem exists_turn (hw : net.WellFormed) (hlive : net.Live stack) :
    ∃ t, net.turn stack = .ok t ∧ net.Turned stack t := by
  cases stack with
  | nil => exact ⟨.rest, rfl, .rest rfl⟩
  | cons top below =>
    obtain ⟨h, i⟩ := top
    obtain ⟨node, hn⟩ := Option.isSome_iff_exists.1 (hlive h List.mem_cons_self)
    have hframes := @frames_cons net below h node hn i
    have hload (i : Nat) :
        net.stackLoad (⟨h, i⟩ :: below) = node.inputCount - i + 1 + net.stackLoad below := by
      rw [stackLoad, inputs_eq hn]
    simp only [turn, get_eq_ok.2 hn, bind, Except.bind]
    -- The next input, if there is one, is fed or not; past the last one the node is left.
    split
    · rename_i hi
      have hless : net.stackLoad (⟨h, i + 1⟩ :: below) < net.stackLoad (⟨h, i⟩ :: below) := by
        rw [hload, hload]
        omega
      rw [Node.producersFrom_of_lt hi] at hframes
      have hframes' := @frames_cons net below h node hn (i + 1)
      split
      · rename_i hl
        rw [hl] at hframes
        exact ⟨_, rfl, .pass rfl (hframes'.trans hframes.symm) hless⟩
      · rename_i link hl
        rw [hl] at hframes
        have hp := hw.isSome_of_reads (reads_of_link? hn hl)
        exact ⟨_, rfl, .meet rfl hframes hframes' hless hp⟩
    · rename_i hi
      rw [Node.producersFrom_of_le (Nat.not_lt.1 hi)] at hframes
      refine ⟨_, rfl, .leave rfl hframes ?_⟩
      rw [hload]
      omega

/-! ### Walks -/

/-- A walk between two rounds; `pushed` are the nodes that have been put on the stack so far. -/
structure WalkState where
  stack : List Entry
  visited : Visited
  finished : Array Handle
  pushed : List Handle

/-- A round of a walk. -/
def walkRound (net : Network) (s : WalkState) :
    Round WalkState (Except Fault (Array Handle × Visited)) :=
  match net.turn s.stack with
  | .error fault => .ends (.error fault)
  | .ok .rest => .ends (.ok (s.finished, s.visited))
  | .ok (.leave h below) => .goesOn { s with stack := below, finished := s.finished.push h }
  | .ok (.pass stack) => .goesOn { s with stack }
  | .ok (.meet p stack) =>
    if s.visited.contains p then .goesOn { s with stack }
    else
      .goesOn { s with
        stack := ⟨p, 0⟩ :: stack
        visited := s.visited.insert p
        pushed := p :: s.pushed }

/-- A walk before its first round. -/
def walkStart (root : Handle) (visited : Visited) : WalkState :=
  if visited.contains root then ⟨[], visited, #[], []⟩
  else ⟨[⟨root, 0⟩], visited.insert root, #[], [root]⟩

namespace WalkState

/-- A walk pushes live nodes, marks them, and does so once. -/
structure Sound (net : Network) (s : WalkState) : Prop where
  live : net.Live s.stack
  marked : ∀ x ∈ s.pushed, s.visited.contains x = true
  nodup : s.pushed.Nodup

/-- The rounds that a walk takes at most. -/
def load (net : Network) (s : WalkState) : Nat :=
  net.unseenLoad (fun x => s.visited.contains x) + net.stackLoad s.stack

/-- What a walk goes on to. -/
def due (net : Network) (s : WalkState) : Except Fault (Array Handle × Visited) :=
  net.walk (net.frames s.stack) s.visited s.finished

namespace Sound

variable {s : WalkState} (hs : s.Sound net)
include hs

theorem leave {below : List Entry} {finished : Array Handle}
    (hstacked : stacked s.stack = h :: stacked below) :
    Sound net { s with stack := below, finished } :=
  ⟨fun x hx => hs.live x (hstacked ▸ List.mem_cons_of_mem _ hx), hs.marked, hs.nodup⟩

theorem pass (hstacked : stacked stack = stacked s.stack) : Sound net { s with stack } :=
  ⟨fun x hx => hs.live x (hstacked ▸ hx), hs.marked, hs.nodup⟩

/-- A live node that has not been seen may be pushed. -/
theorem push (hp : (net.node? p).isSome) (hseen : ¬ s.visited.contains p = true) :
    Sound net
      ⟨⟨p, 0⟩ :: s.stack, s.visited.insert p, s.finished, p :: s.pushed⟩ where
  live := List.forall_mem_cons.2 ⟨hp, hs.live⟩
  marked x hx := by
    rw [Visited.contains_insert_iff]
    exact (List.mem_cons.1 hx).imp Eq.symm (hs.marked x)
  nodup := List.nodup_cons.2 ⟨fun hx => hseen (hs.marked p hx), hs.nodup⟩

end Sound

end WalkState

/-- Pushing a node moves the rounds that it takes from the unseen nodes to the stack. -/
theorem unseenLoad_insert {visited : Visited} (hp : (net.node? p).isSome)
    (hseen : ¬ visited.contains p = true) :
    net.unseenLoad (fun x => (visited.insert p).contains x) + (net.inputs p + 1)
      ≤ net.unseenLoad fun x => visited.contains x := by
  have hmono (x : Handle) (hx : visited.contains x = true) :=
    Visited.contains_insert_iff (h := p).2 (.inr hx)
  exact unseenLoad_lt hmono hp (Bool.eq_false_iff.2 hseen)
    (Visited.contains_insert_iff.2 (.inl rfl))

/-! #### What a walk goes on to -/

section Walk

variable {rest : List Frame} {pending : List Handle} {visited : Visited} {finished : Array Handle}

/-- A walk finishes a node that has nothing pending. -/
theorem walk_finish :
    net.walk (⟨h, []⟩ :: rest) visited finished = net.walk rest visited (finished.push h) := by
  rw [walk]

/-- A walk skips a node that has been visited. -/
theorem walk_skip (hp : visited.contains p = true) :
    net.walk (⟨h, p :: pending⟩ :: rest) visited finished
      = net.walk (⟨h, pending⟩ :: rest) visited finished := by
  rw [walk, if_pos hp]

/-- A walk enters any other node, marks it, and goes on with its producers. -/
theorem walk_enter (hp : ¬ visited.contains p = true) (hn : net.node? p = some node) :
    net.walk (⟨h, p :: pending⟩ :: rest) visited finished
      = net.walk (⟨p, node.producers⟩ :: ⟨h, pending⟩ :: rest) (visited.insert p) finished := by
  rw [walk, if_neg hp]
  split
  · rename_i fault hg
    rw [get_eq_ok.2 hn] at hg
    cases hg
  · rename_i node' hg
    obtain rfl := Option.some.inj (hn.symm.trans (get_eq_ok.1 hg))
    rfl

end Walk

section WellFormed

variable (hw : net.WellFormed)
include hw

/-- Every round of a walk advances. -/
theorem advances_walkRound (s : WalkState) (hs : s.Sound net) :
    Advances (WalkState.Sound net) (WalkState.load net) (WalkState.due net) s
      (net.walkRound s) := by
  obtain ⟨t, hturn, ht⟩ := exists_turn hw hs.live
  unfold walkRound
  rw [hturn]
  -- Each turn keeps the answer that is due and lessens what is left to do.
  cases ht with
  | rest hstack =>
    refine .ends ?_
    rw [WalkState.due, hstack, frames_nil, walk]
  | leave hstacked hframes hload =>
    refine .goesOn (hs.leave hstacked) (Nat.add_lt_add_left hload _) ?_
    rw [WalkState.due, WalkState.due, hframes, walk_finish]
  | pass hstacked hframes hload =>
    refine .goesOn (hs.pass hstacked) (Nat.add_lt_add_left hload _) ?_
    rw [WalkState.due, WalkState.due, hframes]
  | @meet h p pending rest stack hstacked hframes hframes' hload hp =>
    dsimp only
    split
    · rename_i hseen
      refine .goesOn (hs.pass hstacked) (Nat.add_lt_add_left hload _) ?_
      rw [WalkState.due, WalkState.due, hframes, hframes', walk_skip hseen]
    · rename_i hseen
      obtain ⟨node, hn⟩ := Option.isSome_iff_exists.1 hp
      refine .goesOn ((hs.pass hstacked).push hp hseen) ?_ ?_
      · have hless := unseenLoad_insert hp hseen
        simp only [WalkState.load, stackLoad]
        omega
      · rw [WalkState.due, WalkState.due, frames_push hn, hframes, hframes', walk_enter hseen hn]

end WellFormed

section Start

variable {root : Handle} (visited : Visited)

theorem nodup_walkStart : (walkStart root visited).pushed.Nodup := by
  unfold walkStart
  split
  · exact .nil
  · exact List.nodup_singleton root

theorem sound_empty : WalkState.Sound net ⟨[], visited, #[], []⟩ :=
  ⟨by simp [stacked, Live], by simp, .nil⟩

section Live

variable (hroot : (net.node? root).isSome)
include hroot

/-- A walk that starts at a live node is sound from the start. -/
theorem sound_walkStart : (walkStart root visited).Sound net := by
  unfold walkStart
  split
  · exact sound_empty visited
  · rename_i hseen
    exact (sound_empty visited).push hroot hseen

/-- At the start there is no more to do than all nodes together take. -/
theorem load_walkStart_le : (walkStart root visited).load net ≤ net.effort := by
  unfold walkStart WalkState.load
  split
  · exact unseenLoad_le (by simp)
  · rename_i hseen
    have hless := unseenLoad_insert hroot hseen
    have hall : net.unseenLoad (fun x => visited.contains x) ≤ net.effort := unseenLoad_le (by simp)
    simp only [stackLoad]
    omega

/-- The answer that is due before the first round is that of the walk. -/
theorem due_walkStart : (walkStart root visited).due net = net.postOrder root visited := by
  obtain ⟨node, hn⟩ := Option.isSome_iff_exists.1 hroot
  unfold walkStart postOrder
  split
  · rw [WalkState.due, frames_nil, walk]
  · rw [WalkState.due, frames_push hn, get_eq_ok.2 hn]
    rfl

end Live

/-- A walk that starts at a handle that names nothing ends in its first round. -/
theorem rounds_walkRound_of_stale (hroot : net.node? root = none) (n : Nat) :
    rounds net.walkRound (n + 1) (walkStart root visited) = .ends (net.postOrder root visited) := by
  have hget : net.get root = .error (.staleHandle root) := get_eq_error.2 ⟨hroot, rfl⟩
  unfold walkStart postOrder
  split
  · rfl
  · simp [rounds, walkRound, turn, hget, bind, Except.bind]

end Start

section WellFormed

variable (hw : net.WellFormed) (root : Handle) (visited : Visited)
include hw

/-- A walk from any root and with any set of seen nodes ends, with the list that the recursion along
    the producers gives. -/
theorem WellFormed.rounds_walkRound {n : Nat} (hn : net.effort < n) :
    rounds net.walkRound n (walkStart root visited) = .ends (net.postOrder root visited) := by
  by_cases hroot : (net.node? root).isSome
  · rw [← due_walkStart visited hroot]
    exact rounds_eq_ends (advances_walkRound hw) (sound_walkStart visited hroot)
      (Nat.lt_of_le_of_lt (load_walkStart_le visited hroot) hn)
  · obtain ⟨n, rfl⟩ : ∃ k, n = k + 1 := ⟨n - 1, by omega⟩
    exact rounds_walkRound_of_stale visited (by simpa using hroot) n

/-- After any number of rounds of a walk no node has been pushed twice. -/
theorem WellFormed.nodup_pushed_walk {n : Nat} {s : WalkState}
    (h : rounds net.walkRound n (walkStart root visited) = .goesOn s) : s.pushed.Nodup := by
  by_cases hroot : (net.node? root).isSome
  · exact (inv_of_rounds (advances_walkRound hw) (sound_walkStart visited hroot) h).nodup
  · cases n with
    | zero =>
      cases h
      exact nodup_walkStart visited
    | succ n =>
      rw [rounds_walkRound_of_stale visited (by simpa using hroot)] at h
      cases h

end WellFormed

/-! ### Searches for cycles -/

/-- A search for cycles between two rounds: the nodes from which it still has to start, the stack,
    and the open and the closed nodes; `pushed` are the nodes that have been put on the stack so
    far. -/
structure SearchState where
  starts : List Handle
  stack : List Entry
  opened : Visited
  closed : Visited
  pushed : List Handle

/-- A round of a search for cycles. -/
def searchRound (net : Network) (s : SearchState) : Round SearchState (Except Fault Unit) :=
  match net.turn s.stack with
  | .error fault => .ends (.error fault)
  | .ok .rest =>
    match s.starts with
    | [] => .ends (.ok ())
    | start :: starts =>
      if s.closed.contains start then .goesOn { s with starts }
      else
        .goesOn { s with
          starts
          stack := [⟨start, 0⟩]
          opened := s.opened.insert start
          pushed := start :: s.pushed }
  | .ok (.leave h below) =>
    .goesOn { s with stack := below, opened := s.opened.erase h, closed := s.closed.insert h }
  | .ok (.pass stack) => .goesOn { s with stack }
  | .ok (.meet p stack) =>
    if s.closed.contains p then .goesOn { s with stack }
    else if s.opened.contains p then .ends (net.get p >>= fun node => .error (.cyclic node.id))
    else
      .goesOn { s with
        stack := ⟨p, 0⟩ :: stack
        opened := s.opened.insert p
        pushed := p :: s.pushed }

/-- A search for cycles before its first round. -/
def searchStart (net : Network) : SearchState := ⟨net.handlesInOrder, [], .empty, .empty, []⟩

namespace SearchState

/-- A search starts at live nodes and pushes live nodes.  The open nodes are on the stack, and a
    node that has been pushed is open or closed, so it is not pushed again. -/
structure Sound (net : Network) (s : SearchState) : Prop where
  starts : ∀ h ∈ s.starts, (net.node? h).isSome
  live : net.Live s.stack
  opened : ∀ x, s.opened.contains x = true → x ∈ stacked s.stack
  marked : ∀ x ∈ s.pushed, s.opened.contains x = true ∨ s.closed.contains x = true
  nodup : s.pushed.Nodup

/-- The rounds that a search takes at most. -/
def load (net : Network) (s : SearchState) : Nat :=
  net.unseenLoad (fun x => s.opened.contains x || s.closed.contains x) + net.stackLoad s.stack
    + s.starts.length

/-- What a search goes on to. -/
def due (net : Network) (s : SearchState) : Except Fault Unit :=
  net.search (net.frames s.stack) s.opened s.closed >>= fun closed =>
    net.checkAcyclicFrom closed s.starts

namespace Sound

variable {s : SearchState} (hs : s.Sound net)
include hs

theorem next {start : Handle} {starts : List Handle} (hstarts : s.starts = start :: starts) :
    Sound net { s with starts } :=
  ⟨fun x hx => hs.starts x (hstarts ▸ List.mem_cons_of_mem _ hx), hs.live, hs.opened, hs.marked,
    hs.nodup⟩

/-- Between two starts no node is open. -/
theorem not_opened (hstack : s.stack = []) (x : Handle) : ¬ s.opened.contains x = true := by
  intro hx
  have hmem := hs.opened x hx
  rw [hstack] at hmem
  cases hmem

/-- The top node goes from open to closed. -/
theorem leave {below : List Entry} (hstacked : stacked s.stack = h :: stacked below) :
    Sound net
      { s with stack := below, opened := s.opened.erase h, closed := s.closed.insert h } where
  starts := hs.starts
  live x hx := hs.live x (hstacked ▸ List.mem_cons_of_mem _ hx)
  opened x hx := by
    obtain ⟨hne, ho⟩ := Visited.contains_erase_iff.1 hx
    have hmem := hs.opened x ho
    rw [hstacked] at hmem
    exact (List.mem_cons.1 hmem).resolve_left hne.symm
  marked x hx := by
    rw [Visited.contains_erase_iff, Visited.contains_insert_iff]
    -- The node that leaves is closed; the other pushed ones stay what they are.
    by_cases hh : h = x
    · exact .inr (.inl hh)
    · exact (hs.marked x hx).imp (fun ho => ⟨hh, ho⟩) .inr
  nodup := hs.nodup

theorem pass (hstacked : stacked stack = stacked s.stack) : Sound net { s with stack } :=
  ⟨hs.starts, fun x hx => hs.live x (hstacked ▸ hx), fun x hx => hstacked ▸ hs.opened x hx,
    hs.marked, hs.nodup⟩

/-- A live node that is neither open nor closed may be pushed. -/
theorem push (hp : (net.node? p).isSome) (ho : ¬ s.opened.contains p = true)
    (hc : ¬ s.closed.contains p = true) :
    Sound net
      ⟨s.starts, ⟨p, 0⟩ :: s.stack, s.opened.insert p, s.closed, p :: s.pushed⟩ where
  starts := hs.starts
  live := List.forall_mem_cons.2 ⟨hp, hs.live⟩
  opened x hx := by
    rcases Visited.contains_insert_iff.1 hx with rfl | hx
    · exact List.mem_cons_self
    · exact List.mem_cons_of_mem _ (hs.opened x hx)
  marked x hx := by
    rw [Visited.contains_insert_iff, or_assoc]
    exact (List.mem_cons.1 hx).imp Eq.symm (hs.marked x)
  nodup := List.nodup_cons.2 ⟨fun hx => (hs.marked p hx).elim ho hc, hs.nodup⟩

end Sound

end SearchState

/-- Opening a node moves the rounds that it takes from the unseen nodes to the stack. -/
theorem unseenLoad_open {opened closed : Visited} (hp : (net.node? p).isSome)
    (ho : ¬ opened.contains p = true) (hc : ¬ closed.contains p = true) :
    net.unseenLoad (fun x => (opened.insert p).contains x || closed.contains x) + (net.inputs p + 1)
      ≤ net.unseenLoad fun x => opened.contains x || closed.contains x := by
  refine unseenLoad_lt (fun x hx => ?_) hp ?_ ?_
  · rw [Bool.or_eq_true] at hx ⊢
    exact hx.imp_left fun ho => Visited.contains_insert_iff.2 (.inr ho)
  · rw [Bool.eq_false_iff.2 ho, Bool.eq_false_iff.2 hc, Bool.or_false]
  · rw [Visited.contains_insert_iff.2 (.inl rfl), Bool.true_or]

/-- Closing an open node leaves no more unseen. -/
theorem unseenLoad_close {opened closed : Visited} :
    net.unseenLoad (fun x => (opened.erase h).contains x || (closed.insert h).contains x)
      ≤ net.unseenLoad fun x => opened.contains x || closed.contains x := by
  refine unseenLoad_le fun x hx => ?_
  rw [Bool.or_eq_true] at hx
  rw [Bool.or_eq_true, Visited.contains_erase_iff, Visited.contains_insert_iff]
  by_cases hh : h = x
  · exact .inr (.inl hh)
  · exact hx.imp (fun ho => ⟨hh, ho⟩) .inr

/-! #### What a search goes on to -/

section Search

variable {stack : List Frame} {pending : List Handle} {opened opened' closed : Visited}

/-- For a search it only matters which nodes are open. -/
theorem search_congr (h : ∀ x, opened.contains x = opened'.contains x) :
    net.search stack opened closed = net.search stack opened' closed := by
  -- Only what the open nodes contain is looked at, so each step of the search is the same.
  fun_induction Network.search net stack opened closed generalizing opened' with
  | case1 => rw [search_nil]
  | case2 opened closed h' rest ih =>
    rw [search_finish]
    exact ih fun x => by simp only [Std.TreeSet.contains_erase, h]
  | case3 opened closed h' p pending rest hc ih =>
    rw [search_skip hc]
    exact ih h
  | case4 opened closed h' p pending rest hc fault hg =>
    rw [search, if_neg hc]
    split
    · rename_i fault' hg'
      cases hg.symm.trans hg'
      rfl
    · rename_i node hg'
      cases hg.symm.trans hg'
  | case5 opened closed h' p pending rest hc node hg ho =>
    rw [search_meet hc (get_eq_ok.1 hg), if_pos (h p ▸ ho)]
  | case6 opened closed h' p pending rest hc node hg ho ih =>
    rw [search_meet hc (get_eq_ok.1 hg), if_neg (h p ▸ ho)]
    exact ih fun x => by simp only [Std.TreeSet.contains_insert, h]

end Search

section WellFormed

variable (hw : net.WellFormed)
include hw

omit hw in
/-- A search without a node on its stack goes on to the next start. -/
theorem advances_rest {s : SearchState} (hs : s.Sound net) (hstack : s.stack = []) :
    Advances (SearchState.Sound net) (SearchState.load net) (SearchState.due net) s
      (net.searchRound s) := by
  have hdue : s.due net = net.checkAcyclicFrom s.closed s.starts := by
    rw [SearchState.due, hstack, frames_nil, search_nil]
    rfl
  have hturn : net.turn s.stack = .ok .rest := by
    rw [hstack, turn]
  unfold searchRound
  rw [hturn]
  dsimp only
  -- An empty stack ends the search if there is no node to start from.
  split
  · rename_i hstarts
    refine .ends ?_
    rw [hdue, hstarts, checkAcyclicFrom]
  · rename_i start starts hstarts
    rw [hstarts, checkAcyclicFrom] at hdue
    split
    · rename_i hc
      refine .goesOn (hs.next hstarts) ?_ ?_
      · simp [SearchState.load, hstarts]
      · rw [hdue, if_pos hc, SearchState.due, hstack, frames_nil, search_nil]
        rfl
    · rename_i hc
      have hp := hs.starts start (hstarts ▸ List.mem_cons_self)
      obtain ⟨node, hn⟩ := Option.isSome_iff_exists.1 hp
      have ho := hs.not_opened hstack
      have hsound := (hs.next hstarts).push hp (ho start) hc
      rw [hstack] at hsound
      refine .goesOn hsound ?_ ?_
      · have hless := unseenLoad_open hp (ho start) hc
        simp only [SearchState.load, stackLoad, hstack, hstarts, List.length_cons]
        omega
      · have hopen x : (s.opened.insert start).contains x
            = ((Std.TreeSet.empty : Visited).insert start).contains x := by
          simp [Std.TreeSet.contains_insert, Bool.eq_false_iff.2 (ho x)]
        rw [hdue, if_neg hc, get_eq_ok.2 hn, SearchState.due, frames_push hn, frames_nil,
          search_congr hopen]
        rfl

/-- Every round of a search advances. -/
theorem advances_searchRound (s : SearchState) (hs : s.Sound net) :
    Advances (SearchState.Sound net) (SearchState.load net) (SearchState.due net) s
      (net.searchRound s) := by
  obtain ⟨t, hturn, ht⟩ := exists_turn hw hs.live
  cases ht with
  | rest hstack => exact advances_rest hs hstack
  | leave hstacked hframes hload =>
    simp only [searchRound, hturn]
    refine .goesOn (hs.leave hstacked) ?_ ?_
    · exact Nat.add_lt_add_right (Nat.add_lt_add_of_le_of_lt unseenLoad_close hload) _
    · rw [SearchState.due, SearchState.due, hframes, search_finish]
  | pass hstacked hframes hload =>
    simp only [searchRound, hturn]
    refine .goesOn (hs.pass hstacked) ?_ ?_
    · exact Nat.add_lt_add_right (Nat.add_lt_add_left hload _) _
    · rw [SearchState.due, SearchState.due, hframes]
  | @meet h p pending rest stack hstacked hframes hframes' hload hp =>
    simp only [searchRound, hturn]
    split
    · rename_i hc
      refine .goesOn (hs.pass hstacked) ?_ ?_
      · exact Nat.add_lt_add_right (Nat.add_lt_add_left hload _) _
      · rw [SearchState.due, SearchState.due, hframes, hframes', search_skip hc]
    · rename_i hc
      obtain ⟨node, hn⟩ := Option.isSome_iff_exists.1 hp
      have hmeet : net.search (⟨h, p :: pending⟩ :: rest) s.opened s.closed = _ := search_meet hc hn
      -- A node that is open is met again on its own path, so there is a cycle.
      split
      · rename_i ho
        refine .ends ?_
        rw [SearchState.due, hframes, hmeet, if_pos ho, get_eq_ok.2 hn]
        rfl
      · rename_i ho
        refine .goesOn ((hs.pass hstacked).push hp ho hc) ?_ ?_
        · have hless := unseenLoad_open hp ho hc
          simp only [SearchState.load, stackLoad]
          omega
        · rw [SearchState.due, SearchState.due, frames_push hn, hframes', hframes, hmeet, if_neg ho]

/-- A search is sound from the start. -/
theorem sound_searchStart : net.searchStart.Sound net :=
  ⟨fun _ hh => hw.mem_handlesInOrder.1 hh, by simp [Live, stacked, searchStart],
    by simp [searchStart], by simp [searchStart], .nil⟩

/-- The search for cycles ends, with the answer that the recursion along the producers gives. -/
theorem WellFormed.rounds_searchRound {n : Nat}
    (hn : net.effort + net.handlesInOrder.length < n) :
    rounds net.searchRound n net.searchStart = .ends net.checkAcyclic := by
  have hdue : net.searchStart.due net = net.checkAcyclic := by
    simp [SearchState.due, searchStart, frames, search_nil, checkAcyclic, bind, Except.bind]
  have hload : net.searchStart.load net ≤ net.effort + net.handlesInOrder.length := by
    simp [SearchState.load, searchStart, stackLoad, effort]
  rw [← hdue]
  exact rounds_eq_ends (advances_searchRound hw) (sound_searchStart hw)
    (Nat.lt_of_le_of_lt hload hn)

/-- After any number of rounds of the search no node has been pushed twice. -/
theorem WellFormed.nodup_pushed_search {n : Nat} {s : SearchState}
    (h : rounds net.searchRound n net.searchStart = .goesOn s) : s.pushed.Nodup :=
  (inv_of_rounds (advances_searchRound hw) (sound_searchStart hw) h).nodup

end WellFormed

end Network

end MaterialNet
