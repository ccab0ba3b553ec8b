import MaterialNet.Description.Basic
import MaterialNet.Proofs.WellFormed

namespace MaterialNet

/-!
# Networks that arise by editing

A network is made new or from a description, and then edited by calls in any order and with any
arguments; a refused call leaves it as it was.

* `Call`, `Network.after` — the calls and what each leaves behind
* `Network.Arises` — the networks that calls lead to
* `Network.Arises.wellFormed` — all of them are well formed
* `Network.Consistent`, `Network.Arises.consistent` — what the parts of such a network say about
  each other
-/

/-! ### Calls -/

/-- A call on a network.  Handles, nodes and inputs may be anything: stale, null or taken from
    another network, flawed, or out of range. -/
inductive Call where
  | add (node : Node)
  | remove (h : Handle)
  | connect (consumer : Handle) (link : Link)
  | connectSlot (slot : Slot) (producer : Handle) (facet : Facet)
  | disconnect (consumer : Handle) (input : Nat)
  /-- Replaces the settings. -/
  | configure (settings : Settings)
  /-- Builds a network from a description in the place of this one. -/
  | load (d : Description)

/-- An arena numbers its places with 32 bits and keeps two numbers for itself. -/
def Arena.capacity : Nat := UInt32.size - 2

namespace Network

/-- The network that a finished edit leaves behind: a refused edit changes nothing. -/
def afterEdit {α : Type} (net : Network) : Except Fault (Edit α) → Network
  | .ok e => e.network
  | .error _ => net

/-- The network after a call. -/
def after (net : Network) : Call → Network
  | .add node => net.afterEdit (net.add node)
  | .remove h => net.afterEdit (net.remove h)
  | .connect consumer link => net.afterEdit (net.connect consumer link)
  | .connectSlot slot producer facet => net.afterEdit (net.connectSlot slot producer facet)
  | .disconnect consumer input => net.afterEdit (net.disconnect consumer input)
  | .configure settings => net.withSettings settings
  | .load d =>
    match (build d).result with
    | .ok () => (build d).state
    | .error _ => net

/-- The nodes and the sink have room in an arena. -/
def Fits (net : Network) : Prop := net.size + 1 ≤ Arena.capacity

instance (net : Network) : Decidable net.Fits := inferInstanceAs (Decidable (_ ≤ _))

/-- The networks that arise from a new one by calls.  A copy of a network is the network itself, so
    calls on copies are covered.  A call that would overfill the arena never comes back. -/
inductive Arises : Network → Prop where
  | new (settings : Settings) : Arises (new settings)
  | call {net : Network} (c : Call) (h : Arises net) (hfits : (net.after c).Fits) :
      Arises (net.after c)

/-- The network after several calls. -/
def run (net : Network) (calls : List Call) : Network := calls.foldl after net

/-- Every network on the way has room in its arena. -/
def fitsAlong (net : Network) : List Call → Bool
  | [] => true
  | c :: rest => (net.after c).Fits && (net.after c).fitsAlong rest

/-- A run of calls leads to a network that arises if there is room all the way. -/
theorem Arises.run {net : Network} (h : net.Arises) {calls : List Call}
    (hfits : net.fitsAlong calls = true) : (net.run calls).Arises := by
  induction calls generalizing net with
  | nil => exact h
  | cons c rest ih =>
    simp only [fitsAlong, Bool.and_eq_true, decide_eq_true_eq] at hfits
    exact ih (h.call c hfits.1) hfits.2

/-! ### Calls keep a network well formed -/

/-- A call that is refused leaves the network as it was, and one that succeeds keeps it well
    formed. -/
theorem WellFormed.afterEdit {α : Type} {net : Network} (hw : net.WellFormed)
    {r : Except Fault (Edit α)} (h : ∀ e, r = .ok e → e.network.WellFormed) :
    (net.afterEdit r).WellFormed := by
  cases r with
  | ok e => exact h e rfl
  | error fault => exact hw

/-- An edit within an action goes on with the changed network. -/
theorem gives_apply {α : Type} {edit : Network → Except Fault (Edit α)} {net net' : Network}
    {a : α} : (apply edit).Gives net a net' ↔
      ∃ e, edit net = .ok e ∧ e.answer = a ∧ e.network = net' := by
  unfold apply
  simp only [Action.gives_bind, Action.gives_getState, Action.gives_lift, Action.gives_setState,
    Action.gives_note, Action.gives_pure]
  constructor
  · rintro ⟨_, _, ⟨rfl, rfl⟩, e, _, ⟨he, rfl⟩, _, _, rfl, _, _, rfl, ha, hn⟩
    exact ⟨e, he, ha, hn⟩
  · rintro ⟨e, he, ha, hn⟩
    exact ⟨_, _, ⟨rfl, rfl⟩, e, _, ⟨he, rfl⟩, (), _, rfl, (), _, rfl, ha, hn⟩

/-- Loading nodes keeps a network well formed at every step. -/
theorem wellFormed_of_addEntries {es : List NodeEntry} {net net' : Network}
    (hw : net.WellFormed) (h : (addEntries es).Gives net () net') : net'.WellFormed := by
  induction es generalizing net with
  | nil =>
    obtain ⟨-, rfl⟩ := Action.gives_pure.1 h
    exact hw
  | cons entry rest ih =>
    obtain ⟨_, net₁, hadd, hrest⟩ := Action.gives_bind.1 h
    obtain ⟨e, he, -, rfl⟩ := gives_apply.1 hadd
    exact ih (hw.add he) hrest

/-- Loading connections keeps a network well formed at every step. -/
theorem wellFormed_of_addConnections {cs : List Connection} {net net' : Network}
    (hw : net.WellFormed) (h : (addConnections cs).Gives net () net') : net'.WellFormed := by
  induction cs generalizing net with
  | nil =>
    obtain ⟨-, rfl⟩ := Action.gives_pure.1 h
    exact hw
  | cons c rest ih =>
    obtain ⟨_, net₁, hconnect, hrest⟩ := Action.gives_bind.1 h
    obtain ⟨e, he, -, rfl⟩ := gives_apply.1 hconnect
    unfold connectByName at he
    obtain ⟨producer, -, he⟩ := bind_ok_iff.1 he
    obtain ⟨consumer, -, he⟩ := bind_ok_iff.1 he
    exact ih (hw.connect he) hrest

/-- The network of a description is well formed. -/
theorem wellFormed_build {d : Description} (h : (build d).result = .ok ()) :
    (build d).state.WellFormed := by
  have hg : (addAll d).Gives (new d.settings) () (build d).state := ⟨h, rfl⟩
  -- Nodes and connections are loaded into a new network by edits.
  unfold addAll at hg
  obtain ⟨_, net₁, hentries, hg⟩ := Action.gives_bind.1 hg
  obtain ⟨_, net₂, hconnections, hg⟩ := Action.gives_bind.1 hg
  rw [← Action.gives_note.1 hg]
  exact wellFormed_of_addConnections (wellFormed_of_addEntries (wellFormed_new _) hentries)
    hconnections

/-- Every call keeps a network well formed, whether it succeeds or is refused. -/
theorem WellFormed.after {net : Network} (hw : net.WellFormed) (c : Call) :
    (net.after c).WellFormed := by
  -- A slot is an input of the sink, so connecting it is connecting a node.
  cases c with
  | add node => exact hw.afterEdit fun _ h => hw.add h
  | remove h => exact hw.afterEdit fun _ h => hw.remove h
  | connect consumer link => exact hw.afterEdit fun _ h => hw.connect h
  | connectSlot slot producer facet => exact hw.afterEdit fun _ h => hw.connect h
  | disconnect consumer input => exact hw.afterEdit fun _ h => hw.disconnect h
  | configure settings => exact hw.withSettings settings
  | load d =>
    -- Loading starts from a new network, and only replaces the old one if it succeeds.
    simp only [Network.after]
    split
    · rename_i h
      exact wellFormed_build h
    · exact hw

/-- Every network that arises is well formed. -/
theorem Arises.wellFormed {net : Network} (h : net.Arises) : net.WellFormed := by
  induction h with
  | new settings => exact wellFormed_new settings
  | call c _ _ ih => exact ih.after c

/-- Every network that arises has room in its arena. -/
theorem Arises.fits {net : Network} (h : net.Arises) : net.Fits := by
  cases h with
  | new settings => exact of_decide_eq_true rfl
  | call c _ hfits => exact hfits

/-! ### What the parts say about each other -/

/-- What holds between the parts of a network that calls have led to. -/
structure Consistent (net : Network) : Prop where
  /-- The index leads from the names of the live nodes to their handles, and from nothing else to
      anywhere. -/
  index : ∀ id h, net.find? id = some h ↔ ∃ node, net.node? h = some node ∧ node.id = id
  /-- No two live nodes have one name. -/
  names : ∀ h h' node node', net.node? h = some node → net.node? h' = some node' →
    node.id = node'.id → h = h'
  /-- The sink has its own name in the index. -/
  sink_name : net.find? sinkName = some net.sink
  /-- The order lists each live node but the sink exactly once, and nothing else. -/
  order : net.order.toList.Nodup
    ∧ ∀ h, h ∈ net.order.toList ↔ h ≠ net.sink ∧ (net.node? h).isSome
  /-- The sink is live. -/
  sink_live : (net.node? net.sink).isSome
  /-- The sink is the only node of its kind. -/
  sink_only : ∀ h node, net.node? h = some node → (node.kind = .sink ↔ h = net.sink)
  /-- All other nodes are sound on their own. -/
  check : ∀ h node, net.node? h = some node → h ≠ net.sink → node.check = .ok ()
  /-- No input of a node is fed twice. -/
  inputs : ∀ h node, net.node? h = some node → (node.links.map Link.input).Nodup
  /-- Every link feeds an input that there is and reads a facet that a live node has. -/
  links : ∀ h node, net.node? h = some node → ∀ l ∈ node.links,
    l.input < node.inputCount
      ∧ ∃ producer, net.node? l.producer = some producer
        ∧ ∃ type, producer.facetType l.facet = .ok type
  /-- No link reads the sink. -/
  sink_unread : ∀ h node, net.node? h = some node → ∀ l ∈ node.links, l.producer ≠ net.sink

/-- Every network that calls lead to is consistent, whatever the calls and their arguments were
    and whether they succeeded. -/
theorem Arises.consistent {net : Network} (h : net.Arises) : net.Consistent := by
  have hw := h.wellFormed
  refine
    { index := hw.find?_iff
      names := fun _ _ _ _ hn hn' hid => hw.handle_unique hn hn' hid
      sink_name := hw.find?_sinkName
      order := ⟨hw.order_nodup, hw.mem_order⟩
      sink_live := ?_
      sink_only := fun h node hn => ?_
      check := hw.check
      inputs := hw.linksSound
      links := fun h node hn l hl => ?_
      sink_unread := fun h node hn l hl => hw.producer_ne_sink hn hl }
  · obtain ⟨s, hs, -⟩ := hw.sink_live
    simp [hs]
  · rw [← hw.isSink_iff hn]
    simp [Node.isSink]
  · obtain ⟨hi, p, type, hp, ht⟩ := hw.linkSound h node hn l hl
    exact ⟨hi, p, hp, type, ht⟩

/-- A sampler that feeds a function and a slot is removed, its place is used again for a constant,
    and calls with the stale handle, with a null handle and for a second sink are refused. -/
def reusedPlace : Network :=
  (new {}).run
    [.add ⟨"base", .uniform, .texture, []⟩,
      .add ⟨"inverse", .inMain, .unary .oneMinus .float, []⟩,
      .connect ⟨3, 1⟩ ⟨⟨2, 1⟩, .r, 0⟩,
      .connect ⟨3, 1⟩ ⟨⟨3, 1⟩, .value, 0⟩,
      .connectSlot .albedo ⟨2, 1⟩ .rgb,
      .remove ⟨2, 1⟩,
      .add ⟨"gain", .inMain, .constant (.float .one), []⟩,
      .connectSlot .metallic ⟨2, 1⟩ .value,
      .connectSlot .roughness ⟨2, 3⟩ .value,
      .disconnect .null 0,
      .add ⟨"other", .inMain, .sink, []⟩]

/-- A network in which a place has been used twice is consistent. -/
theorem consistent_reusedPlace : reusedPlace.Arises ∧ reusedPlace.Consistent := by
  have h : reusedPlace.Arises := (Arises.new {}).run (by decide +kernel)
  exact ⟨h, h.consistent⟩

end Network

end MaterialNet
