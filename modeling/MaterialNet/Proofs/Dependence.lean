import Mathlib.Logic.Relation
import MaterialNet.Proofs.WellFormed

namespace MaterialNet

/-!
# Dependence between nodes

A node depends on the producers of its links, on their producers, and so on.

* `Network.Reads`, `Network.DependsOn` — one link, and any number of links
* `Network.Acyclic` — no node depends on itself through one or more links
* `Network.Feeds`, `Network.FeedsStage` — what the slots of the sink depend on
* `Network.fills` — whether a slot reads a node
* `Network.slotProducers` — what feeds the slots directly
-/

open Relation

namespace Network

variable {net : Network}

/-- The node `h` keeps a link that reads `p`. -/
def Reads (net : Network) (h p : Handle) : Prop :=
  ∃ node, net.node? h = some node ∧ ∃ l ∈ node.links, l.producer = p

/-- `h` depends on `p` through any number of links, or is `p` itself. -/
def DependsOn (net : Network) : Handle → Handle → Prop := ReflTransGen net.Reads

/-- Following one or more links to producers never leads back. -/
def Acyclic (net : Network) : Prop := ∀ h, ¬ TransGen net.Reads h h

/-- `h` is what a link of the sink at `slot` depends on. -/
def Feeds (net : Network) (slot : Slot) (h : Handle) : Prop :=
  ∃ sink link, net.node? net.sink = some sink ∧ sink.link? slot.index = some link
    ∧ net.DependsOn link.producer h

/-- `h` is what some slot of a stage depends on. -/
def FeedsStage (net : Network) (stage : Stage) (h : Handle) : Prop :=
  ∃ slot ∈ stage.slots, net.Feeds slot h

/-- Whether the sink has a link at a slot that reads `h`. -/
def fills (net : Network) (slot : Slot) (h : Handle) : Bool :=
  ((net.node? net.sink).bind fun sink => sink.link? slot.index).any fun l => l.producer = h

/-- What fills a slot of a stage feeds the stage. -/
theorem feedsStage_of_fills {stage : Stage} {slot : Slot} {h : Handle}
    (hslot : slot ∈ stage.slots) (hfills : net.fills slot h = true) : net.FeedsStage stage h := by
  obtain ⟨link, hlink, hproducer⟩ := (Option.any_eq_true _ _).1 hfills
  obtain ⟨sink, hsink, hl⟩ := Option.bind_eq_some_iff.1 hlink
  refine ⟨slot, hslot, sink, link, hsink, hl, ?_⟩
  rw [of_decide_eq_true hproducer]
  exact .refl

/-- There is no cycle where every link leads from a node to one of smaller rank. -/
theorem acyclic_of_rank (rank : Handle → Nat) (h : ∀ x p, net.Reads x p → rank p < rank x) :
    net.Acyclic := by
  have hdecreases x p (hp : TransGen net.Reads x p) : rank p < rank x := by
    induction hp with
    | single hr => exact h _ _ hr
    | tail _ hr ih => exact Nat.lt_trans (h _ _ hr) ih
  exact fun x hx => Nat.lt_irrefl _ (hdecreases x x hx)

/-- Whether every link of the network leads from a node to one of smaller rank. -/
def ranked (net : Network) (rank : Handle → Nat) : Bool :=
  net.arena.handles.all fun h =>
    match net.node? h with
    | some n => n.links.all fun l => rank l.producer < rank h
    | none => true

/-- Where every link leads to a lower rank there is no cycle. -/
theorem acyclic_of_ranked {rank : Handle → Nat} (h : net.ranked rank = true) : net.Acyclic := by
  refine acyclic_of_rank rank ?_
  rintro x p ⟨n, hn, l, hl, rfl⟩
  have hlive : (net.arena.get? x).isSome := Option.isSome_iff_exists.2 ⟨n, hn⟩
  have hmem := (net.arena.mem_handles x).2 hlive
  have hx := List.all_eq_true.1 h x hmem
  rw [hn] at hx
  exact of_decide_eq_true (List.all_eq_true.1 hx l hl)

/-- The producers that feed the given slots of a sink, in order. -/
def slotProducers (sink : Node) (slots : List Slot) : List Handle :=
  slots.filterMap fun slot => (sink.link? slot.index).map Link.producer

/-- The producers of several slots are those of each of them, in order. -/
theorem slotProducers_cons (sink : Node) (slot : Slot) (rest : List Slot) :
    slotProducers sink (slot :: rest)
      = slotProducers sink [slot] ++ slotProducers sink rest := by
  unfold slotProducers
  rw [← List.filterMap_append, List.singleton_append]

/-- An open slot has no producer. -/
theorem slotProducers_of_unfed {sink : Node} {slot : Slot} (h : sink.link? slot.index = none) :
    slotProducers sink [slot] = [] := by
  simp [slotProducers, h]

/-- A slot with a link has the link's producer. -/
theorem slotProducers_of_fed {sink : Node} {slot : Slot} {link : Link}
    (h : sink.link? slot.index = some link) : slotProducers sink [slot] = [link.producer] := by
  simp [slotProducers, h]

/-- A stage needs what the producers of its slots depend on. -/
theorem feedsStage_iff {sink : Node} (hs : net.node? net.sink = some sink) {stage : Stage}
    {h : Handle} :
    net.FeedsStage stage h ↔ ∃ p ∈ slotProducers sink stage.slots, net.DependsOn p h := by
  simp only [FeedsStage, Feeds, slotProducers, List.mem_filterMap, Option.map_eq_some_iff]
  constructor
  · rintro ⟨slot, hslot, sink', link, hs', hl, hd⟩
    obtain rfl := Option.some.inj (hs.symm.trans hs')
    exact ⟨_, ⟨slot, hslot, link, hl, rfl⟩, hd⟩
  · rintro ⟨_, ⟨slot, hslot, link, hl, rfl⟩, hd⟩
    exact ⟨slot, hslot, sink, link, hs, hl, hd⟩

/-! ### Links and producers -/

/-- The producers of a node are those that its links read, each of them at an input of the node. -/
theorem mem_producers {node : Node} (hs : node.LinksSound)
    (hi : ∀ l ∈ node.links, l.input < node.inputCount) {p : Handle} :
    p ∈ node.producers ↔ ∃ l ∈ node.links, l.producer = p := by
  simp only [Node.producers, List.mem_filterMap, List.mem_range, Option.map_eq_some_iff]
  constructor
  · rintro ⟨input, -, l, hl, rfl⟩
    exact ⟨l, (Node.link?_eq_some hl).1, rfl⟩
  · -- The link of an input is found under it because no other link feeds the input.
    rintro ⟨l, hl, rfl⟩
    exact ⟨l.input, hi l hl, l, hs.link?_eq_some_iff.2 ⟨hl, rfl⟩, rfl⟩

/-- A node reads the producer of each of its links. -/
theorem reads_of_link? {h : Handle} {node : Node} {input : Nat} {link : Link}
    (hn : net.node? h = some node) (hl : node.link? input = some link) :
    net.Reads h link.producer :=
  ⟨node, hn, link, (Node.link?_eq_some hl).1, rfl⟩

section WellFormed

variable (hw : net.WellFormed)
include hw

/-- What a live node reads are its producers, since no link of it is stale. -/
theorem WellFormed.reads_iff {h p : Handle} {node : Node} (hn : net.node? h = some node) :
    net.Reads h p ↔ p ∈ node.producers := by
  rw [mem_producers (hw.linksSound h node hn) fun l hl => (hw.linkSound h node hn l hl).1]
  constructor
  · rintro ⟨m, hm, h⟩
    rw [Option.some.inj (hn.symm.trans hm)]
    exact h
  · exact fun h => ⟨node, hn, h⟩

/-- What a node reads is live. -/
theorem WellFormed.isSome_of_reads {h p : Handle} (hr : net.Reads h p) : (net.node? p).isSome := by
  obtain ⟨node, hn, l, hl, rfl⟩ := hr
  obtain ⟨-, producer, _, hp, -⟩ := hw.linkSound h node hn l hl
  simp [hp]

/-- What a live node depends on is live. -/
theorem WellFormed.isSome_of_dependsOn {h p : Handle} (hl : (net.node? h).isSome)
    (hd : net.DependsOn h p) : (net.node? p).isSome := by
  induction hd with
  | refl => exact hl
  | tail _ hr _ => exact hw.isSome_of_reads hr

/-- No slot depends on the sink. -/
theorem WellFormed.ne_sink_of_reads {h p : Handle} (hr : net.Reads h p) : p ≠ net.sink := by
  obtain ⟨node, hn, l, hl, rfl⟩ := hr
  exact hw.producer_ne_sink hn hl

/-- What a node of the network other than the sink depends on is one, too. -/
theorem WellFormed.mem_order_of_dependsOn {h p : Handle} (hm : h ∈ net.order.toList)
    (hd : net.DependsOn h p) : p ∈ net.order.toList := by
  -- Along the links: each leads to a live node that is not the sink.
  induction hd with
  | refl => exact hm
  | tail _ hr _ => exact (hw.mem_order _).2 ⟨hw.ne_sink_of_reads hr, hw.isSome_of_reads hr⟩

/-- Nodes other than the sink do not depend on it. -/
theorem WellFormed.not_dependsOn_sink {h : Handle} (hm : h ∈ net.order.toList) :
    ¬ net.DependsOn h net.sink := by
  intro hd
  exact ((hw.mem_order _).1 (hw.mem_order_of_dependsOn hm hd)).1 rfl

/-- The producers of the slots are nodes of the network other than the sink. -/
theorem WellFormed.mem_order_of_slotProducers {sink : Node}
    (hs : net.node? net.sink = some sink) {slots : List Slot} :
    ∀ p ∈ slotProducers sink slots, p ∈ net.order.toList := by
  intro p hp
  obtain ⟨slot, -, hp⟩ := List.mem_filterMap.1 hp
  obtain ⟨link, hl, rfl⟩ := Option.map_eq_some_iff.1 hp
  have hr := reads_of_link? hs hl
  exact (hw.mem_order _).2 ⟨hw.ne_sink_of_reads hr, hw.isSome_of_reads hr⟩

/-- What feeds a stage is a node of the network other than the sink. -/
theorem WellFormed.mem_order_of_feedsStage {stage : Stage} {h : Handle}
    (hf : net.FeedsStage stage h) : h ∈ net.order.toList := by
  obtain ⟨slot, -, sink, link, hs, hl, hd⟩ := hf
  have hr := reads_of_link? hs hl
  have hm := (hw.mem_order _).2 ⟨hw.ne_sink_of_reads hr, hw.isSome_of_reads hr⟩
  exact hw.mem_order_of_dependsOn hm hd

end WellFormed

/-- Nodes that are not live read nothing. -/
theorem not_reads_of_none {h p : Handle} (hn : net.node? h = none) : ¬ net.Reads h p := by
  rintro ⟨node, hm, -⟩
  rw [hn] at hm
  cases hm

end Network

end MaterialNet
