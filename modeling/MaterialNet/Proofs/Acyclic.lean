import Mathlib.Order.WellFounded
import MaterialNet.Network.Reachable
import MaterialNet.Proofs.Dependence

namespace MaterialNet.Network

/-!
# The search for cycles is exact

The open nodes of a search form a path of links from the start to the current node, so a producer
that is open lies on a cycle.  A node is closed when all of its producers are, so no infinite path
starts at a closed node.

* `search_eq_error`, `search_eq_ok` — what a search that fails and one that comes to its end show
* `WellFormed.checkAcyclic_eq_ok_iff`, `checkAcyclic_eq_error` — the whole check
* `wellFounded_of_checkAcyclic` — in a network that passes, dependence is well founded
-/

open Relation

variable {net : Network} {stack : List Frame} {opened closed closed' : Visited} {fault : Fault}

/-- The links of the network, from a producer to its consumer. -/
def ReadBy (net : Network) (p h : Handle) : Prop := net.Reads h p

/-- No infinite path of links to producers starts at the node. -/
def Grounded (net : Network) (h : Handle) : Prop := Acc net.ReadBy h

/-! ### What a search goes on to -/

section Step

variable {h p : Handle} {pending : List Handle} {node : Node}

theorem search_nil : net.search [] opened closed = .ok closed := by
  rw [search]

/-- A node without pending producers is closed. -/
theorem search_finish :
    net.search (⟨h, []⟩ :: stack) opened closed
      = net.search stack (opened.erase h) (closed.insert h) := by
  rw [search]

/-- A closed producer is passed over. -/
theorem search_skip (hp : closed.contains p = true) :
    net.search (⟨h, p :: pending⟩ :: stack) opened closed
      = net.search (⟨h, pending⟩ :: stack) opened closed := by
  rw [search, if_pos hp]

/-- A producer that is not closed closes a cycle if it is open, and is entered if not. -/
theorem search_meet (hp : ¬ closed.contains p = true) (hn : net.node? p = some node) :
    net.search (⟨h, p :: pending⟩ :: stack) opened closed
      = if opened.contains p then .error (.cyclic node.id)
        else
          net.search (⟨p, node.producers⟩ :: ⟨h, pending⟩ :: stack) (opened.insert p) closed := by
  rw [search, if_neg hp]
  split
  · rename_i fault hg
    rw [get_eq_ok.2 hn] at hg
    cases hg
  · rename_i node' hg
    obtain rfl := Option.some.inj (hn.symm.trans (get_eq_ok.1 hg))
    rfl

end Step

/-! ### Failing searches -/

/-- The stack of a search: every node is read by the one below it, and what is pending for a node
    is read by it. -/
structure Path (net : Network) (stack : List Frame) : Prop where
  chain : (stack.map Frame.handle).IsChain net.ReadBy
  pending : ∀ f ∈ stack, ∀ q ∈ f.pending, net.Reads f.handle q

/-- Every node of a path depends on the top one. -/
theorem Path.dependsOn_top {f : Frame} (h : Path net (f :: stack)) :
    ∀ g ∈ f :: stack, net.DependsOn g.handle f.handle := by
  have hchain := h.chain
  clear h
  -- Down the stack: the node below reads the one above it.
  induction stack generalizing f with
  | nil =>
    intro g hg
    rw [List.mem_singleton.1 hg]
    exact .refl
  | cons f' rest ih =>
    intro g hg
    rcases List.mem_cons.1 hg with rfl | hg
    · exact .refl
    · exact (ih hchain.of_cons g hg).tail hchain.rel

/-- Passing over a pending producer leaves a path. -/
theorem Path.skip {h p : Handle} {pending : List Handle}
    (hp : Path net (⟨h, p :: pending⟩ :: stack)) : Path net (⟨h, pending⟩ :: stack) where
  chain := hp.chain
  pending f hf q hq := by
    rcases List.mem_cons.1 hf with rfl | hf
    · exact hp.pending _ List.mem_cons_self q (List.mem_cons_of_mem _ hq)
    · exact hp.pending f (List.mem_cons_of_mem _ hf) q hq

/-- Entering a pending producer leaves a path. -/
theorem Path.enter (hw : net.WellFormed) {h p : Handle} {pending : List Handle} {node : Node}
    (hp : Path net (⟨h, p :: pending⟩ :: stack)) (hn : net.node? p = some node) :
    Path net (⟨p, node.producers⟩ :: ⟨h, pending⟩ :: stack) where
  chain := .cons_cons (hp.pending _ List.mem_cons_self p List.mem_cons_self) hp.chain
  pending f hf q hq := by
    rcases List.mem_cons.1 hf with rfl | hf
    · exact (hw.reads_iff hn).2 hq
    · exact hp.skip.pending f hf q hq

/-- Leaving a finished node leaves a path. -/
theorem Path.finish {f : Frame} (hp : Path net (f :: stack)) : Path net stack :=
  ⟨hp.chain.of_cons, fun g hg => hp.pending g (List.mem_cons_of_mem _ hg)⟩

/-- A search starts with a path of one node. -/
theorem Path.start (hw : net.WellFormed) {h : Handle} {node : Node}
    (hn : net.node? h = some node) : Path net [⟨h, node.producers⟩] where
  chain := .singleton h
  pending f hf q hq := by
    rw [List.mem_singleton.1 hf] at hq ⊢
    exact (hw.reads_iff hn).2 hq

/-- A search fails only with the name of a node that depends on itself. -/
theorem search_eq_error (hw : net.WellFormed) (hpath : Path net stack)
    (hopened : ∀ h, opened.contains h = true → ∃ f ∈ stack, f.handle = h)
    (h : net.search stack opened closed = .error fault) :
    ∃ p node, net.node? p = some node ∧ fault = .cyclic node.id ∧ TransGen net.Reads p p := by
  fun_induction Network.search net stack opened closed with
  | case1 => cases h
  | case2 opened closed h' rest ih =>
    refine ih hpath.finish (fun x hx => ?_) h
    -- What stays open after `h'` has been left is not `h'`.
    simp only [Std.TreeSet.contains_erase, Bool.and_eq_true, bne_iff_ne, ne_eq,
      Std.compare_eq_iff_eq] at hx
    obtain ⟨f, hf, rfl⟩ := hopened x hx.2
    rcases List.mem_cons.1 hf with rfl | hf
    · exact absurd rfl hx.1
    · exact ⟨f, hf, rfl⟩
  | case3 opened closed h' p pending rest hc ih =>
    refine ih hpath.skip (fun x hx => ?_) h
    obtain ⟨f, hf, rfl⟩ := hopened x hx
    rcases List.mem_cons.1 hf with rfl | hf
    · exact ⟨_, List.mem_cons_self, rfl⟩
    · exact ⟨f, List.mem_cons_of_mem _ hf, rfl⟩
  | case4 opened closed h' p pending rest hc fault' hg =>
    have hlive := hw.isSome_of_reads (hpath.pending _ List.mem_cons_self p List.mem_cons_self)
    rw [(get_eq_error.1 hg).1] at hlive
    cases hlive
  | case5 opened closed h' p pending rest hc node hg ho =>
    cases h
    obtain ⟨f, hf, rfl⟩ := hopened p ho
    have hread := hpath.pending _ List.mem_cons_self f.handle List.mem_cons_self
    exact ⟨_, node, get_eq_ok.1 hg, rfl, .tail' (hpath.dependsOn_top f hf) hread⟩
  | case6 opened closed h' p pending rest hc node hg ho ih =>
    refine ih (hpath.enter hw (get_eq_ok.1 hg)) (fun x hx => ?_) h
    simp only [Std.TreeSet.contains_insert, Bool.or_eq_true, beq_iff_eq,
      Std.compare_eq_iff_eq] at hx
    rcases hx with rfl | hx
    · exact ⟨_, List.mem_cons_self, rfl⟩
    · obtain ⟨f, hf, rfl⟩ := hopened x hx
      rcases List.mem_cons.1 hf with rfl | hf
      · exact ⟨⟨h', pending⟩, by simp, rfl⟩
      · exact ⟨f, by simp [hf], rfl⟩

/-! ### Searches that come to their end -/

/-- The stack of a search keeps account of the producers: each producer of a node is closed, is
    still pending for it, or is the node above it on the stack. -/
def Accounted (net : Network) (closed : Visited) : Option Handle → List Frame → Prop
  | _, [] => True
  | above?, f :: rest =>
    (∀ q, net.Reads f.handle q → closed.contains q = true ∨ q ∈ f.pending ∨ above? = some q)
      ∧ Accounted net closed (some f.handle) rest

/-- Closing more nodes keeps the account. -/
theorem Accounted.mono {above? : Option Handle} (h : Accounted net closed above? stack)
    (hle : ∀ x, closed.contains x = true → closed'.contains x = true) :
    Accounted net closed' above? stack := by
  induction stack generalizing above? with
  | nil => exact trivial
  | cons f rest ih => exact ⟨fun q hq => (h.1 q hq).imp_left (hle q), ih h.2⟩

/-- When the node above is closed, the account no longer needs it. -/
theorem Accounted.drop {p : Handle} (h : Accounted net closed (some p) stack)
    (hp : closed.contains p = true) : Accounted net closed none stack := by
  cases stack with
  | nil => exact trivial
  | cons f rest =>
    refine ⟨fun q hq => ?_, h.2⟩
    rcases h.1 q hq with hc | hq | ha
    · exact .inl hc
    · exact .inr (.inl hq)
    · cases ha
      exact .inl hp

/-- A producer that is closed need not be pending. -/
theorem Accounted.skip {h p : Handle} {pending : List Handle}
    (ha : Accounted net closed none (⟨h, p :: pending⟩ :: stack)) (hp : closed.contains p = true) :
    Accounted net closed none (⟨h, pending⟩ :: stack) := by
  refine ⟨fun q hq => ?_, ha.2⟩
  rcases ha.1 q hq with hc | hq | habove
  · exact .inl hc
  · rcases List.mem_cons.1 hq with rfl | hq
    · exact .inl hp
    · exact .inr (.inl hq)
  · cases habove

/-- A producer that is entered is no longer pending, but it is the node above its consumer. -/
theorem Accounted.enter (hw : net.WellFormed) {h p : Handle} {pending : List Handle} {node : Node}
    (ha : Accounted net closed none (⟨h, p :: pending⟩ :: stack)) (hn : net.node? p = some node) :
    Accounted net closed none (⟨p, node.producers⟩ :: ⟨h, pending⟩ :: stack) := by
  refine ⟨fun q hq => .inr (.inl ((hw.reads_iff hn).1 hq)), fun q hq => ?_, ha.2⟩
  rcases ha.1 q hq with hc | hq | habove
  · exact .inl hc
  · rcases List.mem_cons.1 hq with rfl | hq
    · exact .inr (.inr rfl)
    · exact .inr (.inl hq)
  · cases habove

/-- The producers of a node with nothing pending are closed, so the node is grounded as they are. -/
theorem Accounted.grounded {h : Handle} (ha : Accounted net closed none (⟨h, []⟩ :: stack))
    (hclosed : ∀ x, closed.contains x = true → net.Grounded x) : net.Grounded h :=
  .intro h fun q hq => by
    rcases ha.1 q hq with hc | hq | habove
    · exact hclosed q hc
    · cases hq
    · cases habove

/-- A search that comes to its end closes every node of its stack, keeps what was closed, and
    closes grounded nodes only. -/
theorem search_eq_ok (hw : net.WellFormed) (h : net.search stack opened closed = .ok closed')
    (hstack : Accounted net closed none stack)
    (hclosed : ∀ x, closed.contains x = true → net.Grounded x) :
    (∀ f ∈ stack, closed'.contains f.handle = true)
      ∧ (∀ x, closed.contains x = true → closed'.contains x = true)
      ∧ ∀ x, closed'.contains x = true → net.Grounded x := by
  fun_induction Network.search net stack opened closed with
  | case1 =>
    cases h
    exact ⟨by simp, fun _ hx => hx, hclosed⟩
  | case2 opened closed h' rest ih =>
    have hmem x : (closed.insert h').contains x = true ↔ h' = x ∨ closed.contains x = true := by
      simp [Std.TreeSet.contains_insert]
    have hrest := (hstack.2.mono fun x hx => (hmem x).2 (.inr hx)).drop ((hmem h').2 (.inl rfl))
    obtain ⟨h₁, h₂, h₃⟩ := ih h hrest fun x hx => by
      rcases (hmem x).1 hx with rfl | hx
      · exact hstack.grounded hclosed
      · exact hclosed x hx
    refine ⟨fun f hf => ?_, fun x hx => h₂ x ((hmem x).2 (.inr hx)), h₃⟩
    rcases List.mem_cons.1 hf with rfl | hf
    · exact h₂ h' ((hmem h').2 (.inl rfl))
    · exact h₁ f hf
  | case3 opened closed h' p pending rest hc ih =>
    obtain ⟨h₁, h₂, h₃⟩ := ih h (hstack.skip hc) hclosed
    refine ⟨fun f hf => ?_, h₂, h₃⟩
    rcases List.mem_cons.1 hf with rfl | hf
    · exact h₁ ⟨h', pending⟩ List.mem_cons_self
    · exact h₁ f (List.mem_cons_of_mem _ hf)
  | case4 => cases h
  | case5 => cases h
  | case6 opened closed h' p pending rest hc node hg ho ih =>
    obtain ⟨h₁, h₂, h₃⟩ := ih h (hstack.enter hw (get_eq_ok.1 hg)) hclosed
    refine ⟨fun f hf => ?_, h₂, h₃⟩
    rcases List.mem_cons.1 hf with rfl | hf
    · exact h₁ ⟨h', pending⟩ (List.mem_cons_of_mem _ List.mem_cons_self)
    · exact h₁ f (List.mem_cons_of_mem _ (List.mem_cons_of_mem _ hf))

/-! ### The whole check -/

/-- The check fails only with the name of a node that depends on itself. -/
theorem checkAcyclicFrom_eq_error (hw : net.WellFormed) {starts : List Handle}
    (hstarts : ∀ h ∈ starts, (net.node? h).isSome)
    (h : net.checkAcyclicFrom closed starts = .error fault) :
    ∃ p node, net.node? p = some node ∧ fault = .cyclic node.id ∧ TransGen net.Reads p p := by
  induction starts generalizing closed with
  | nil => cases h
  | cons start rest ih =>
    have hrest x (hx : x ∈ rest) := hstarts x (List.mem_cons_of_mem _ hx)
    simp only [checkAcyclicFrom] at h
    split at h
    · exact ih hrest h
    · rcases bind_error_iff.1 h with hg | ⟨node, hg, h⟩
      · have hlive := hstarts start List.mem_cons_self
        rw [(get_eq_error.1 hg).1] at hlive
        cases hlive
      · rcases bind_error_iff.1 h with hs | ⟨closed', -, h⟩
        · -- When the search begins, only the start is open.
          refine search_eq_error hw (.start hw (get_eq_ok.1 hg)) (fun x hx => ?_) hs
          refine ⟨_, List.mem_cons_self, ?_⟩
          simpa [Std.TreeSet.contains_insert] using hx
        · exact ih hrest h

/-- The check succeeds only if all nodes that it starts from are grounded. -/
theorem checkAcyclicFrom_eq_ok (hw : net.WellFormed) {starts : List Handle}
    (hclosed : ∀ x, closed.contains x = true → net.Grounded x)
    (h : net.checkAcyclicFrom closed starts = .ok ()) : ∀ x ∈ starts, net.Grounded x := by
  induction starts generalizing closed with
  | nil => simp
  | cons start rest ih =>
    simp only [checkAcyclicFrom] at h
    split at h
    · rename_i hs
      exact List.forall_mem_cons.2 ⟨hclosed start hs, ih hclosed h⟩
    · obtain ⟨node, hg, h⟩ := bind_ok_iff.1 h
      obtain ⟨closed', hs, h⟩ := bind_ok_iff.1 h
      have haccount : Accounted net closed none [⟨start, node.producers⟩] :=
        ⟨fun q hq => .inr (.inl ((hw.reads_iff (get_eq_ok.1 hg)).1 hq)), trivial⟩
      obtain ⟨h₁, -, h₃⟩ := search_eq_ok hw hs haccount hclosed
      exact List.forall_mem_cons.2 ⟨h₃ start (h₁ _ List.mem_cons_self), ih h₃ h⟩

/-- A refused network has a cycle through the node that is named. -/
theorem checkAcyclic_eq_error (hw : net.WellFormed) (h : net.checkAcyclic = .error fault) :
    ∃ p node, net.node? p = some node ∧ fault = .cyclic node.id ∧ TransGen net.Reads p p :=
  checkAcyclicFrom_eq_error hw (fun _ hx => hw.mem_handlesInOrder.1 hx) h

/-- In a network that passes the check the links to producers are well founded. -/
theorem wellFounded_of_checkAcyclic (hw : net.WellFormed) (h : net.checkAcyclic = .ok ()) :
    WellFounded net.ReadBy := by
  -- The check starts with nothing closed.
  have hnone (x : Handle) : (Std.TreeSet.empty : Visited).contains x = true → net.Grounded x := by
    simp
  refine ⟨fun x => ?_⟩
  by_cases hx : (net.node? x).isSome
  · exact checkAcyclicFrom_eq_ok hw hnone h x (hw.mem_handlesInOrder.2 hx)
  · -- A node that is not live reads nothing.
    refine .intro x fun q hq => absurd hq (not_reads_of_none ?_)
    simpa using hx

/-- The check succeeds exactly for the networks without cycles. -/
theorem WellFormed.checkAcyclic_eq_ok_iff (hw : net.WellFormed) :
    net.checkAcyclic = .ok () ↔ net.Acyclic := by
  constructor
  · intro h x hx
    exact (wellFounded_of_checkAcyclic hw h).transGen.irrefl.irrefl x (transGen_swap.1 hx)
  · intro h
    cases hr : net.checkAcyclic with
    | ok u => rfl
    | error fault =>
      obtain ⟨p, -, -, -, hp⟩ := checkAcyclic_eq_error hw hr
      exact absurd hp (h p)

end MaterialNet.Network
