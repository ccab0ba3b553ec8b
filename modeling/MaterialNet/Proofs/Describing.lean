import MaterialNet.Proofs.Editing

namespace MaterialNet

/-!
# What the edits do to a description

A description lists the connections in one order: by the place of their target among the nodes,
the sink last, and for one target by its inputs.  Each edit of a network changes its description
as if the edit had been made on the description itself: nodes are appended or dropped, and a
connection is put in its place or cut out.

* `Description.append`, `Description.drop`, `Description.put`, `Description.cut` — the edits of
  descriptions
* `Network.ordered_describe` — the connections of a description stand in order
* `Network.describe_of_add`, … — an edit of a network, described
* `Network.EditsDescription`, `Network.Arises.editsDescription` — when each edit succeeds, and what
  it does to the description
-/

/-! ### Edits of descriptions -/

/-- The connection feeds the given input of the node with the given name. -/
def Connection.Feeds (c : Connection) (target : String) (input : Nat) : Prop :=
  c.target = target ∧ c.input.toNat = input

instance (c : Connection) (target : String) (input : Nat) : Decidable (c.Feeds target input) :=
  inferInstanceAs (Decidable (_ ∧ _))

namespace Description

/-- The names of the nodes in their order, the sink's last. -/
def names (d : Description) : List String := d.nodes.map NodeEntry.id ++ [sinkName]

/-- The target of the first connection comes before that of the second, or it is the same and its
    input comes before. -/
def Before (d : Description) (c c' : Connection) : Prop :=
  d.names.idxOf c.target < d.names.idxOf c'.target
    ∨ c.target = c'.target ∧ c.input.toNat < c'.input.toNat

instance (d : Description) (c c' : Connection) : Decidable (d.Before c c') :=
  inferInstanceAs (Decidable (_ ∨ _))

/-- The connections stand in the order of what they feed. -/
def Ordered (d : Description) : Prop := d.connections.Pairwise d.Before

/-- The connection that feeds an input. -/
def connection? (d : Description) (target : String) (input : Nat) : Option Connection :=
  d.connections.find? fun c => c.Feeds target input

/-- The description with one more node, in the last place. -/
def append (d : Description) (entry : NodeEntry) : Description :=
  { d with nodes := d.nodes ++ [entry] }

/-- The description without a node, and without the connections from it and to it. -/
def drop (d : Description) (id : String) : Description :=
  { d with
    nodes := d.nodes.filter fun entry => entry.id ≠ id
    connections := d.connections.filter fun c => c.source ≠ id ∧ c.target ≠ id }

/-- Puts a connection before the first one that it comes before, or in the place of the one that
    feeds the same input. -/
def insertConnection (d : Description) (c : Connection) : List Connection → List Connection
  | [] => [c]
  | c' :: rest =>
    if d.Before c' c then c' :: d.insertConnection c rest
    else if c'.Feeds c.target c.input.toNat then c :: rest
    else c :: c' :: rest

/-- The description with a connection, which takes the place of the one that feeds the same
    input. -/
def put (d : Description) (c : Connection) : Description :=
  { d with connections := d.insertConnection c d.connections }

/-- The description without the connection that feeds an input. -/
def cut (d : Description) (target : String) (input : Nat) : Description :=
  { d with connections := d.connections.filter fun c => ¬ c.Feeds target input }

/-! ### The order of connections -/

section Order

variable {d : Description} {c c' c'' : Connection}

/-- The order of connections is transitive. -/
theorem Before.trans (h : d.Before c c') (h' : d.Before c' c'') : d.Before c c'' := by
  rcases h with h | ⟨ht, hi⟩ <;> rcases h' with h' | ⟨ht', hi'⟩
  · exact .inl (Nat.lt_trans h h')
  · exact .inl (ht' ▸ h)
  · exact .inl (ht ▸ h')
  · exact .inr ⟨ht.trans ht', Nat.lt_trans hi hi'⟩

/-- No connection stands before itself. -/
theorem not_before_self : ¬ d.Before c c := by
  rintro (h | ⟨-, h⟩) <;> exact Nat.lt_irrefl _ h

/-- A connection does not come before one that feeds the same input. -/
theorem Before.not_feeds (h : d.Before c c') : ¬ c'.Feeds c.target c.input.toNat := by
  rintro ⟨ht, hi⟩
  rcases h with h | ⟨-, h⟩
  · rw [ht] at h
    exact Nat.lt_irrefl _ h
  · omega

/-- Of two connections one comes before the other, unless they feed the same input. -/
theorem before_or_feeds (hc : c.target ∈ d.names) (c' : Connection) :
    d.Before c' c ∨ c'.Feeds c.target c.input.toNat ∨ d.Before c c' := by
  rcases Nat.lt_trichotomy (d.names.idxOf c'.target) (d.names.idxOf c.target) with h | h | h
  · exact .inl (.inl h)
  · have ht : c'.target = c.target := ((List.idxOf_inj hc).1 h.symm).symm
    rcases Nat.lt_trichotomy c'.input.toNat c.input.toNat with hi | hi | hi
    · exact .inl (.inr ⟨ht, hi⟩)
    · exact .inr (.inl ⟨ht, hi⟩)
    · exact .inr (.inr (.inr ⟨ht.symm, hi⟩))
  · exact .inr (.inr (.inl h))

/-- Lists of connections that stand in order are the same if they have the same members. -/
theorem eq_of_ordered {cs cs' : List Connection} (hcs : cs.Pairwise d.Before)
    (hcs' : cs'.Pairwise d.Before) (hmem : ∀ c, c ∈ cs ↔ c ∈ cs') : cs = cs' := by
  have hnodup {l : List Connection} (h : l.Pairwise d.Before) : l.Nodup :=
    h.imp fun {a b} (hab : d.Before a b) (he : a = b) => not_before_self (he ▸ hab)
  refine List.Perm.eq_of_pairwise (fun a b _ _ hab hba => ?_) hcs hcs'
    ((List.perm_ext_iff_of_nodup (hnodup hcs) (hnodup hcs')).2 hmem)
  exact absurd (hab.trans hba) not_before_self

/-- Where the connections stand in order, an input has only one. -/
theorem Ordered.connection?_eq_some_iff (hd : d.Ordered) {target : String} {input : Nat} :
    d.connection? target input = some c ↔ c ∈ d.connections ∧ c.Feeds target input := by
  constructor
  · intro h
    exact ⟨List.mem_of_find?_eq_some h, by simpa using List.find?_some h⟩
  · rintro ⟨hc, hf⟩
    cases hfind : d.connection? target input with
    | none => exact absurd hf (by simpa using List.find?_eq_none.1 hfind c hc)
    | some c' =>
      have hc' := List.mem_of_find?_eq_some hfind
      have hf' : c'.Feeds target input := by simpa using List.find?_some hfind
      -- Of two connections of one input neither would stand before the other.
      have hkeys : (d.connections.map fun c => (c.target, c.input.toNat)).Nodup :=
        List.pairwise_map.2 <| hd.imp fun hab he =>
          hab.not_feeds ⟨(Prod.mk.inj he).1.symm, (Prod.mk.inj he).2.symm⟩
      rw [List.inj_on_of_nodup_map hkeys hc' hc
        (Prod.ext (hf'.1.trans hf.1.symm) (hf'.2.trans hf.2.symm))]

/-! ### Putting a connection in its place -/

variable {cs : List Connection}

/-- A connection that comes after all others is put behind them. -/
theorem insertConnection_of_forall_before (h : ∀ c' ∈ cs, d.Before c' c) :
    d.insertConnection c cs = cs ++ [c] := by
  induction cs with
  | nil => rfl
  | cons c' rest ih =>
    rw [insertConnection, if_pos (h c' List.mem_cons_self),
      ih fun x hx => h x (List.mem_cons_of_mem _ hx)]
    rfl

/-- Afterwards there are the new connection and all others but the one that fed its input. -/
theorem mem_insertConnection (hc : c.target ∈ d.names) (hcs : cs.Pairwise d.Before) :
    c' ∈ d.insertConnection c cs ↔ c' = c ∨ c' ∈ cs ∧ ¬ c'.Feeds c.target c.input.toNat := by
  induction cs with
  | nil => simp [insertConnection]
  | cons b rest ih =>
    obtain ⟨hb, hrest⟩ := List.pairwise_cons.1 hcs
    rw [insertConnection]
    split
    · -- The connections that come before the new one feed other inputs.
      rename_i hbc
      have hne : ¬ b.Feeds c.target c.input.toNat := fun hf =>
        hbc.not_feeds ⟨hf.1.symm, hf.2.symm⟩
      rw [List.mem_cons, ih hrest, List.mem_cons]
      constructor
      · rintro (rfl | rfl | ⟨hm, hf⟩)
        · exact .inr ⟨.inl rfl, hne⟩
        · exact .inl rfl
        · exact .inr ⟨.inr hm, hf⟩
      · rintro (rfl | ⟨rfl | hm, hf⟩)
        · exact .inr (.inl rfl)
        · exact .inl rfl
        · exact .inr (.inr ⟨hm, hf⟩)
    · rename_i hbc
      -- What stands behind the first connection that does not come before the new one feeds
      -- other inputs.
      have hne : ∀ x ∈ rest, ¬ x.Feeds c.target c.input.toNat := fun x hx hf => by
        rcases before_or_feeds hc b with h | h | h
        · exact hbc h
        · exact (hb x hx).not_feeds (by rw [Connection.Feeds, h.1, h.2]; exact hf)
        · exact (h.trans (hb x hx)).not_feeds hf
      split
      · rename_i hf
        rw [List.mem_cons, List.mem_cons]
        constructor
        · rintro (rfl | hm)
          · exact .inl rfl
          · exact .inr ⟨.inr hm, hne _ hm⟩
        · rintro (rfl | ⟨rfl | hm, hf'⟩)
          · exact .inl rfl
          · exact absurd hf hf'
          · exact .inr hm
      · rename_i hf
        rw [List.mem_cons, List.mem_cons]
        constructor
        · rintro (rfl | rfl | hm)
          · exact .inl rfl
          · exact .inr ⟨.inl rfl, hf⟩
          · exact .inr ⟨.inr hm, hne _ hm⟩
        · rintro (rfl | ⟨hm, -⟩)
          · exact .inl rfl
          · exact .inr hm

/-- The connections stand in order afterwards. -/
theorem pairwise_insertConnection (hc : c.target ∈ d.names) (hcs : cs.Pairwise d.Before) :
    (d.insertConnection c cs).Pairwise d.Before := by
  -- Down the list, to the first connection that the new one does not come after.
  induction cs with
  | nil => exact List.pairwise_singleton _ _
  | cons b rest ih =>
    obtain ⟨hb, hrest⟩ := List.pairwise_cons.1 hcs
    rw [insertConnection]
    split
    · rename_i hbc
      refine List.pairwise_cons.2 ⟨fun x hx => ?_, ih hrest⟩
      rcases (mem_insertConnection hc hrest).1 hx with rfl | ⟨hm, -⟩
      · exact hbc
      · exact hb x hm
    · rename_i hbc
      split
      · -- The new connection feeds the same input as the old one did.
        rename_i hf
        refine List.pairwise_cons.2 ⟨fun x hx => ?_, hrest⟩
        have h := hb x hx
        rwa [Before, hf.1, hf.2] at h
      · rename_i hf
        have hcb : d.Before c b := by
          rcases before_or_feeds hc b with h | h | h
          · exact absurd h hbc
          · exact absurd h hf
          · exact h
        refine List.pairwise_cons.2 ⟨fun x hx => ?_, hcs⟩
        rcases List.mem_cons.1 hx with rfl | hx
        · exact hcb
        · exact hcb.trans (hb x hx)

end Order

/-- Nothing is cut out where no connection feeds the input. -/
theorem cut_of_connection?_eq_none {d : Description} {target : String} {input : Nat}
    (h : d.connection? target input = none) : d.cut target input = d := by
  have hfilter : d.connections.filter (fun c => ¬ c.Feeds target input) = d.connections :=
    List.filter_eq_self.2 fun c hc => by
      simpa using List.find?_eq_none.1 h c hc
  rw [cut, hfilter]

end Description

/-- No node has more inputs than the sink has slots. -/
theorem Node.inputCount_le (n : Node) : n.inputCount ≤ Slot.count := by
  cases hk : n.kind <;> simp [inputCount, hk, Slot.count]

namespace Network

/-! ### What a description lists -/

section Describe

variable {net net' : Network}

/-- The connections that feed the node of a handle. -/
def connectionsAt (net : Network) (h : Handle) : List Connection :=
  match net.node? h with
  | some node => net.connectionsOf node
  | none => []

theorem describe_connections (net : Network) :
    net.describe.connections = net.handlesInOrder.flatMap net.connectionsAt := rfl

/-- The connections into a live node are those of its links. -/
theorem connectionsAt_of_node? {h : Handle} {node : Node} (hn : net.node? h = some node) :
    net.connectionsAt h = net.connectionsOf node := by
  simp [connectionsAt, hn]

/-- What leads into a handle leads into the node that it names. -/
theorem mem_connectionsAt {h : Handle} {c : Connection} :
    c ∈ net.connectionsAt h ↔
      ∃ node, net.node? h = some node ∧ c ∈ net.connectionsOf node := by
  unfold connectionsAt
  cases net.node? h <;> simp

/-- A connection of a node comes from a link of the node. -/
theorem mem_connectionsOf {node : Node} {c : Connection} :
    c ∈ net.connectionsOf node ↔
      ∃ l, l.input < node.inputCount ∧ node.link? l.input = some l
        ∧ net.connection? node l = some c := by
  simp only [connectionsOf, List.mem_filterMap, List.mem_range, Option.bind_eq_some_iff]
  constructor
  · rintro ⟨input, hi, l, hl, hc⟩
    obtain rfl := (Node.link?_eq_some hl).2
    exact ⟨l, hi, hl, hc⟩
  · rintro ⟨l, hi, hl, hc⟩
    exact ⟨l.input, hi, l, hl, hc⟩

/-- A link is described by the name of its producer, which has to be live. -/
theorem connection?_eq_some {node : Node} {l : Link} {c : Connection} :
    net.connection? node l = some c ↔
      ∃ producer, net.node? l.producer = some producer
        ∧ c = ⟨producer.id, l.facet, node.id, UInt64.ofNat l.input⟩ := by
  simp only [connection?, Option.map_eq_some_iff, eq_comm (b := c)]

/-- Of the producer only its name shows in a connection. -/
theorem connection?_congr {node node' : Node} {l : Link} (hid : node'.id = node.id)
    (hp : (net'.node? l.producer).map Node.id = (net.node? l.producer).map Node.id) :
    net'.connection? node' l = net.connection? node l := by
  unfold connection?
  rw [hid]
  cases hn : net.node? l.producer <;> cases hn' : net'.node? l.producer <;>
    simp_all

/-- The number of an input fits the number in a connection. -/
theorem toNat_ofNat_input {node : Node} {input : Nat} (h : input < node.inputCount) :
    (UInt64.ofNat input).toNat = input := by
  have hlt : input < 7 := Nat.lt_of_lt_of_le h (Node.inputCount_le node)
  rw [UInt64.toNat_ofNat']
  omega

variable (hw : net.WellFormed)
include hw

/-- The names in a description are those of the live nodes, in their order. -/
theorem WellFormed.names_describe :
    net.describe.names = net.handlesInOrder.filterMap fun h => (net.node? h).map Node.id := by
  obtain ⟨s, hs, hf⟩ := hw.sink_live
  have hsink : s.id = sinkName := hf.1
  simp [Description.names, describe, handlesInOrder, List.map_filterMap, Function.comp_def,
    Node.entry, hs, hsink]

/-- No name occurs twice in a description, not even that of the sink. -/
theorem WellFormed.names_nodup : net.describe.names.Nodup := by
  rw [hw.names_describe]
  refine hw.handlesInOrder_nodup.filterMap fun h h' id hid hid' => ?_
  obtain ⟨n, hn, rfl⟩ := Option.map_eq_some_iff.1 hid
  obtain ⟨n', hn', he⟩ := Option.map_eq_some_iff.1 hid'
  exact hw.handle_unique hn hn' he.symm

/-- The nodes of a description are those in the network's order. -/
theorem WellFormed.mem_names {id : String} :
    id ∈ net.describe.names ↔ ∃ h node, net.node? h = some node ∧ node.id = id := by
  rw [hw.names_describe, List.mem_filterMap]
  constructor
  · rintro ⟨h, -, hid⟩
    obtain ⟨node, hn, hid⟩ := Option.map_eq_some_iff.1 hid
    exact ⟨h, node, hn, hid⟩
  · rintro ⟨h, node, hn, rfl⟩
    exact ⟨h, hw.mem_handlesInOrder.2 (by simp [hn]), by simp [hn]⟩

/-- The connections of a description come from the links of the live nodes. -/
theorem WellFormed.mem_connections {c : Connection} :
    c ∈ net.describe.connections ↔
      ∃ h node l producer, net.node? h = some node ∧ l ∈ node.links
        ∧ net.node? l.producer = some producer
        ∧ c = ⟨producer.id, l.facet, node.id, UInt64.ofNat l.input⟩ := by
  rw [describe_connections, List.mem_flatMap]
  simp only [mem_connectionsAt, mem_connectionsOf, connection?_eq_some]
  constructor
  · rintro ⟨h, -, node, hn, l, -, hl, producer, hp, rfl⟩
    exact ⟨h, node, l, producer, hn, (Node.link?_eq_some hl).1, hp, rfl⟩
  · rintro ⟨h, node, l, producer, hn, hl, hp, rfl⟩
    refine ⟨h, hw.mem_handlesInOrder.2 (by simp [hn]), node, hn, l, ?_, ?_, producer, hp, rfl⟩
    · exact (hw.linkSound h node hn l hl).1
    · exact (hw.linksSound h node hn).link?_eq_some_iff.2 ⟨hl, rfl⟩

/-- The connections of a description stand in order. -/
theorem WellFormed.ordered_describe : net.describe.Ordered := by
  have hnames : net.describe.names.Pairwise fun a b =>
      net.describe.names.idxOf a < net.describe.names.idxOf b := by
    refine List.pairwise_iff_getElem.2 fun i j hi hj hij => ?_
    rwa [hw.names_nodup.idxOf_getElem i hi, hw.names_nodup.idxOf_getElem j hj]
  unfold Description.Ordered
  rw [describe_connections, List.pairwise_flatMap]
  constructor
  · -- The connections of one node stand in the order of its inputs.
    intro h _
    unfold connectionsAt
    cases net.node? h with
    | none => exact List.Pairwise.nil
    | some node =>
      refine List.pairwise_filterMap.2 (List.pairwise_lt_range.imp_of_mem ?_)
      intro i j hi hj hij c hc c' hc'
      obtain ⟨l, hl, hc⟩ := Option.bind_eq_some_iff.1 hc
      obtain ⟨l', hl', hc'⟩ := Option.bind_eq_some_iff.1 hc'
      obtain ⟨_, -, rfl⟩ := connection?_eq_some.1 hc
      obtain ⟨_, -, rfl⟩ := connection?_eq_some.1 hc'
      refine .inr ⟨rfl, ?_⟩
      simp only [(Node.link?_eq_some hl).2, (Node.link?_eq_some hl').2,
        toNat_ofNat_input (List.mem_range.1 hi), toNat_ofNat_input (List.mem_range.1 hj)]
      exact hij
  · rw [hw.names_describe, List.pairwise_filterMap, ← hw.names_describe] at hnames
    refine hnames.imp fun hlt c hc c' hc' => .inl ?_
    obtain ⟨node, hn, hc⟩ := mem_connectionsAt.1 hc
    obtain ⟨node', hn', hc'⟩ := mem_connectionsAt.1 hc'
    obtain ⟨l, -, -, hc⟩ := mem_connectionsOf.1 hc
    obtain ⟨l', -, -, hc'⟩ := mem_connectionsOf.1 hc'
    obtain ⟨_, -, rfl⟩ := connection?_eq_some.1 hc
    obtain ⟨_, -, rfl⟩ := connection?_eq_some.1 hc'
    exact hlt node.id (by simp [hn]) node'.id (by simp [hn'])

omit hw in
/-- A network in which every handle names a node of the same face, or nothing as before, has the
    same nodes in its description. -/
theorem describe_nodes_congr (horder : net'.order.toList = net.order.toList)
    (hentry : ∀ h, (net'.node? h).map Node.entry = (net.node? h).map Node.entry) :
    net'.describe.nodes = net.describe.nodes := by
  simp only [describe, horder, hentry]

end Describe

/-! ### Adding a node, described -/

section Add

variable {net : Network} {node : Node} {e : Edit Handle}

/-- A node can be added exactly if it is sound on its own and its name is new. -/
theorem WellFormed.exists_add_iff (hw : net.WellFormed) :
    (∃ e, net.add node = .ok e) ↔ node.check = .ok () ∧ node.id ∉ net.describe.names := by
  have hnew : node.id ∉ net.describe.names ↔ net.find? node.id = none := by
    rw [hw.mem_names, Option.eq_none_iff_forall_ne_some]
    simp only [ne_eq, hw.find?_iff, not_exists]
  rw [hnew]
  constructor
  · rintro ⟨e, h⟩
    obtain ⟨hc, hn, -⟩ := add_eq_ok h
    exact ⟨hc, hn⟩
  · rintro ⟨hc, hn⟩
    have hcontains : net.index.contains node.id = false := by
      rw [Std.TreeMap.contains_eq_isSome_getElem?, show net.index[node.id]? = none from hn]
      rfl
    -- A sound node with a free name passes both checks of the call.
    cases h : net.add node with
    | ok e => exact ⟨e, rfl⟩
    | error fault =>
      unfold Network.add at h
      rw [hc, hcontains] at h
      cases h

/-- Adding a node appends its entry; the links that it came with do not show. -/
theorem describe_of_add (hw : net.WellFormed) (h : net.add node = .ok e) :
    e.network.describe = net.describe.append node.entry := by
  have hnew := node?_answer_of_add hw h
  have hsettings : e.network.settings = net.settings := by
    obtain ⟨-, -, -, he⟩ := add_eq_ok h
    rw [he]
  -- The older nodes are there as before, and so are the producers that they read.
  have hold {h' : Handle} (hlive : h' ∈ net.handlesInOrder) :
      e.network.node? h' = net.node? h' ∧ e.network.connectionsAt h' = net.connectionsAt h' := by
    obtain ⟨n, hn⟩ := Option.isSome_iff_exists.1 (hw.mem_handlesInOrder.1 hlive)
    have hn' := node?_of_add_of_live hw h hn
    refine ⟨hn'.trans hn.symm, ?_⟩
    rw [connectionsAt_of_node? hn, connectionsAt_of_node? hn', connectionsOf, connectionsOf]
    refine List.filterMap_congr fun i _ => ?_
    cases hl : n.link? i with
    | none => rfl
    | some l =>
      obtain ⟨-, p, type, hp, -⟩ := hw.linkSound h' n hn l (Node.link?_eq_some hl).1
      exact connection?_congr rfl (by rw [node?_of_add_of_live hw h hp, hp])
  have hadded : e.network.node? e.answer = some { node with links := [] } := by
    rw [node?_of_add hw h, if_pos rfl]
  have hnodes : e.network.describe.nodes = net.describe.nodes ++ [node.entry] := by
    show e.network.order.toList.filterMap _ = _
    rw [order_of_add h, List.filterMap_append]
    congr 1
    · refine List.filterMap_congr fun h' hh => ?_
      rw [(hold (List.mem_append_left _ hh)).1]
    · simp [hadded, Node.entry]
  have hconnections : e.network.describe.connections = net.describe.connections := by
    have hnone : e.network.connectionsAt e.answer = [] := by
      rw [connectionsAt_of_node? hadded]
      exact List.filterMap_eq_nil_iff.2 fun i _ => by simp [Node.link?]
    rw [describe_connections, describe_connections, handlesInOrder, handlesInOrder,
      order_of_add h, sink_of_add h, List.append_assoc, List.flatMap_append, List.flatMap_append,
      List.flatMap_append, List.flatMap_singleton, hnone, List.nil_append]
    congr 1
    · exact List.flatMap_congr fun h' hh => (hold (List.mem_append_left _ hh)).2
    · exact List.flatMap_congr fun h' hh => (hold (List.mem_append_right _ hh)).2
  rw [Description.append, ← hnodes, ← hconnections,
    show net.describe.settings = net.settings from rfl, ← hsettings]
  rfl

end Add

/-! ### Removing a node, described -/

section Remove

variable {net : Network} {r : Handle} {e : Edit Node}

/-- A node can be removed exactly if it is live and not the sink. -/
theorem exists_remove_iff : (∃ e, net.remove r = .ok e) ↔ r ≠ net.sink ∧ (net.node? r).isSome := by
  constructor
  · rintro ⟨e, h⟩
    obtain ⟨hs, hn, -⟩ := remove_eq_ok h
    exact ⟨hs, by simp [hn]⟩
  · rintro ⟨hs, hn⟩
    obtain ⟨node, hn⟩ := Option.isSome_iff_exists.1 hn
    have hr : net.arena.get? r = some node := hn
    cases h : net.remove r with
    | ok e => exact ⟨e, rfl⟩
    | error fault =>
      unfold remove at h
      simp [if_neg hs, Arena.remove?, hr] at h

variable (hw : net.WellFormed) (h : net.remove r = .ok e)
include hw h

/-- No other node has the name of the removed one. -/
theorem id_ne_of_remove {h' : Handle} {n : Node} (hn : net.node? h' = some n) (hne : h' ≠ r) :
    n.id ≠ e.answer.id :=
  fun hid => hne (hw.handle_unique hn (remove_eq_ok h).2.1 hid)

/-- What is left of the connections of a node is what does not come from the removed one. -/
theorem connectionsAt_of_remove {h' : Handle} (hne : h' ≠ r) :
    e.network.connectionsAt h' = (net.connectionsAt h').filter fun c =>
      c.source ≠ e.answer.id ∧ c.target ≠ e.answer.id := by
  have hr := (remove_eq_ok h).2.1
  have hnode {k : Handle} (hk : k ≠ r) :
      e.network.node? k = (net.node? k).map fun n => n.scrub r := by
    rw [node?_of_remove h, if_neg hk]
  cases hn : net.node? h' with
  | none => simp [connectionsAt, hn, hnode hne]
  | some n =>
    have hn' : e.network.node? h' = some (n.scrub r) := by rw [hnode hne, hn]; rfl
    have hid := id_ne_of_remove hw h hn hne
    rw [connectionsAt_of_node? hn, connectionsAt_of_node? hn', connectionsOf, connectionsOf,
      List.filter_filterMap]
    -- Input by input: scrubbing drops the links to the removed node, and by names these are the
    -- connections from it.
    refine List.filterMap_congr fun i _ => ?_
    rw [Node.link?_scrub (hw.linksSound h' n hn)]
    cases hl : n.link? i with
    | none => rfl
    | some l =>
      obtain ⟨-, p, type, hp, -⟩ := hw.linkSound h' n hn l (Node.link?_eq_some hl).1
      by_cases hpr : l.producer = r
      · simp [connection?, hpr, hr, Option.filter_some]
      · have hpid := id_ne_of_remove hw h hp hpr
        simp [connection?, hpr, hp, hnode hpr, Node.scrub, hid, hpid, Option.filter_some]

omit hw in
/-- All connections of the removed node have it as their target. -/
theorem filter_connectionsAt_removed :
    (net.connectionsAt r).filter (fun c => c.source ≠ e.answer.id ∧ c.target ≠ e.answer.id)
      = [] := by
  refine List.filter_eq_nil_iff.2 fun c hc => ?_
  rw [connectionsAt_of_node? (remove_eq_ok h).2.1] at hc
  obtain ⟨l, -, -, hc⟩ := mem_connectionsOf.1 hc
  obtain ⟨_, -, rfl⟩ := connection?_eq_some.1 hc
  simp

/-- Removing a node drops it together with its connections. -/
theorem describe_of_remove : e.network.describe = net.describe.drop e.answer.id := by
  obtain ⟨hs, hr, arena, -, he⟩ := remove_eq_ok h
  have hsettings : e.network.settings = net.settings := by rw [he]
  have hnodes : e.network.describe.nodes
      = net.describe.nodes.filter fun entry => entry.id ≠ e.answer.id := by
    show e.network.order.toList.filterMap _ = (net.order.toList.filterMap _).filter _
    rw [order_of_remove h, List.filterMap_filter, List.filter_filterMap]
    refine List.filterMap_congr fun h' _ => ?_
    by_cases hh : h' = r
    · simp [hh, hr, Node.entry, Option.filter_some]
    · cases hn : net.node? h' with
      | none => simp [hh, node?_of_remove h, hn]
      | some n =>
        simp [hh, node?_of_remove h, hn, Node.entry, Node.scrub, Option.filter_some,
          id_ne_of_remove hw h hn hh]
  have hconnections : e.network.describe.connections = net.describe.connections.filter fun c =>
      c.source ≠ e.answer.id ∧ c.target ≠ e.answer.id := by
    have horder : e.network.handlesInOrder = net.handlesInOrder.filter fun h' => h' ≠ r := by
      rw [handlesInOrder, handlesInOrder, order_of_remove h, sink_of_remove h, List.filter_append]
      simp [Ne.symm hs]
    have hflat (l : List Handle) : (l.filter fun h' => h' ≠ r).flatMap e.network.connectionsAt
        = l.flatMap fun h' => (net.connectionsAt h').filter fun c =>
            c.source ≠ e.answer.id ∧ c.target ≠ e.answer.id := by
      induction l with
      | nil => rfl
      | cons h' rest ih =>
        rw [List.flatMap_cons, ← ih]
        by_cases hh : h' = r
        · rw [List.filter_cons_of_neg (by simpa using hh), hh,
            filter_connectionsAt_removed h, List.nil_append]
        · rw [List.filter_cons_of_pos (by simpa using hh), List.flatMap_cons,
            connectionsAt_of_remove hw h hh]
    rw [describe_connections, describe_connections, horder, hflat, List.filter_flatMap]
  rw [Description.drop, ← hnodes, ← hconnections,
    show net.describe.settings = net.settings from rfl, ← hsettings]
  rfl

end Remove

/-! ### Changing links, described -/

section Links

variable {net : Network} {consumer : Handle} {node : Node}

/-- Where the links of one node change, the description lists the same nodes, and the connections
    of all other nodes. -/
theorem describe_modify (hn : net.node? consumer = some node) (f : Node → Node)
    (hface : Node.SameFace (f node) node) :
    let changed : Network := { net with arena := net.arena.modify consumer f }
    changed.describe.settings = net.describe.settings
      ∧ changed.describe.nodes = net.describe.nodes
      ∧ changed.connectionsAt consumer = net.connectionsOf (f node)
      ∧ ∀ h, h ≠ consumer → changed.connectionsAt h = net.connectionsAt h := by
  intro changed
  have hnode (h : Handle) :
      changed.node? h = if h = consumer then some (f node) else net.node? h := by
    have hget := Arena.get?_modify net.arena consumer f h
    rwa [show net.arena.get? consumer = some node from hn] at hget
  -- The entries do not show the links, so the list of nodes stays.
  have hentry (h : Handle) : (changed.node? h).map Node.entry = (net.node? h).map Node.entry := by
    rw [hnode]
    split
    · rename_i hh
      rw [hh, hn, Option.map_some, Option.map_some, Node.entry, Node.entry, hface.1, hface.2.1,
        hface.2.2]
    · rfl
  have hid (h : Handle) : (changed.node? h).map Node.id = (net.node? h).map Node.id := by
    have := congrArg (Option.map NodeEntry.id) (hentry h)
    simpa [Option.map_map, Function.comp_def, Node.entry] using this
  -- A connection shows the name of its producer, which has not changed.
  have hof (n : Node) : changed.connectionsOf n = net.connectionsOf n := by
    refine List.filterMap_congr fun i _ => ?_
    cases n.link? i with
    | none => rfl
    | some l => exact connection?_congr rfl (hid l.producer)
  refine ⟨rfl, describe_nodes_congr rfl hentry, ?_, fun h hh => ?_⟩
  · rw [connectionsAt_of_node? ((hnode consumer).trans (if_pos rfl)), hof]
  · unfold connectionsAt
    rw [hnode, if_neg hh]
    cases net.node? h with
    | none => rfl
    | some n => exact hof n

/-- The connections of a node other than the consumer feed none of the consumer's inputs. -/
theorem not_feeds_of_ne (hw : net.WellFormed) (hn : net.node? consumer = some node) {h : Handle}
    (hne : h ≠ consumer) {c : Connection} (hc : c ∈ net.connectionsAt h) (input : Nat) :
    ¬ c.Feeds node.id input := by
  rintro ⟨ht, -⟩
  obtain ⟨n, hh, hc⟩ := mem_connectionsAt.1 hc
  obtain ⟨l, -, -, hc⟩ := mem_connectionsOf.1 hc
  obtain ⟨_, -, rfl⟩ := connection?_eq_some.1 hc
  exact hne (hw.handle_unique hh hn ht)

/-- A connection of a node feeds the input that its link feeds. -/
theorem feeds_of_connection? {l : Link} {c : Connection} (hi : l.input < node.inputCount)
    (hc : net.connection? node l = some c) (input : Nat) :
    c.Feeds node.id input ↔ l.input = input := by
  obtain ⟨_, -, rfl⟩ := connection?_eq_some.1 hc
  simp [Connection.Feeds, toNat_ofNat_input hi]

/-- A connection can be made exactly if both ends are live, the producer has the facet and the
    consumer the input. -/
theorem exists_connect_iff {link : Link} :
    (∃ e, net.connect consumer link = .ok e) ↔
      ∃ producer node type, net.node? link.producer = some producer
        ∧ net.node? consumer = some node ∧ producer.facetType link.facet = .ok type
        ∧ link.input < node.inputCount := by
  constructor
  · rintro ⟨e, h⟩
    obtain ⟨⟨producer, type, hp, ht⟩, ⟨node, hn, hi⟩, -⟩ := connect_eq_ok h
    exact ⟨producer, node, type, hp, hn, ht, hi⟩
  · rintro ⟨producer, node, type, hp, hn, ht, hi⟩
    cases h : net.connect consumer link with
    | ok e => exact ⟨e, rfl⟩
    | error fault =>
      unfold connect at h
      rw [get_eq_ok.2 hp, get_eq_ok.2 hn] at h
      simp only [bind, Except.bind, ht, if_neg (Nat.not_le.2 hi)] at h
      cases h

/-- The connections of a node after one of its inputs has been fed. -/
theorem mem_connectionsOf_setLink {link : Link} (hi : link.input < node.inputCount)
    {c a : Connection} (hc : net.connection? node link = some c) :
    a ∈ net.connectionsOf (node.setLink link) ↔
      a = c ∨ a ∈ net.connectionsOf node ∧ ¬ a.Feeds node.id link.input := by
  have hface := node.sameFace_setLink link
  have hsame (l : Link) : net.connection? (node.setLink link) l = net.connection? node l :=
    connection?_congr hface.1 rfl
  simp only [mem_connectionsOf, hsame, hface.inputCount, Node.link?_setLink]
  constructor
  · rintro ⟨l, hl, hlink, ha⟩
    -- The input that is fed now has the new connection and no other.
    by_cases hli : l.input = link.input
    · rw [if_pos hli, Option.some.injEq] at hlink
      rw [← hlink, hc] at ha
      exact .inl (Option.some.inj ha).symm
    · rw [if_neg hli] at hlink
      exact .inr ⟨⟨l, hl, hlink, ha⟩, fun hf => hli ((feeds_of_connection? hl ha _).1 hf)⟩
  · rintro (rfl | ⟨⟨l, hl, hlink, ha⟩, hf⟩)
    · exact ⟨link, hi, if_pos rfl, hc⟩
    · refine ⟨l, hl, ?_, ha⟩
      rw [if_neg fun hli => hf ((feeds_of_connection? hl ha _).2 hli), hlink]

/-- Feeding an input puts a connection in its place. -/
theorem describe_of_connect (hw : net.WellFormed) {link : Link} {e : Edit Unit}
    (h : net.connect consumer link = .ok e) {producer : Node}
    (hp : net.node? link.producer = some producer) (hn : net.node? consumer = some node) :
    e.network.describe = net.describe.put
      ⟨producer.id, link.facet, node.id, UInt64.ofNat link.input⟩ := by
  obtain ⟨-, ⟨node', hn', hi⟩, he⟩ := connect_eq_ok h
  obtain rfl : node' = node := Option.some.inj (hn'.symm.trans hn)
  obtain ⟨hsettings, hnodes, hat, hother⟩ :=
    describe_modify hn (fun n => n.setLink link) (node'.sameFace_setLink link)
  simp only [← he] at hsettings hnodes hat hother
  let c : Connection := ⟨producer.id, link.facet, node'.id, UInt64.ofNat link.input⟩
  have hc : c.target ∈ net.describe.names := hw.mem_names.2 ⟨consumer, node', hn, rfl⟩
  have hci : c.input.toNat = link.input := toNat_ofNat_input hi
  have hbefore : e.network.describe.Before = net.describe.Before := by
    funext a b
    rw [Description.Before, Description.Before, Description.names, Description.names, hnodes]
  have hordered := (hw.connect h).ordered_describe
  rw [Description.Ordered, hbefore] at hordered
  have hconnections : e.network.describe.connections
      = net.describe.insertConnection c net.describe.connections := by
    refine Description.eq_of_ordered hordered
      (Description.pairwise_insertConnection hc hw.ordered_describe) fun a => ?_
    rw [Description.mem_insertConnection hc hw.ordered_describe, describe_connections,
      describe_connections, show e.network.handlesInOrder = net.handlesInOrder by rw [he]; rfl,
      List.mem_flatMap, List.mem_flatMap, hci]
    have hmem : a ∈ e.network.connectionsAt consumer ↔
        a = c ∨ a ∈ net.connectionsAt consumer ∧ ¬ a.Feeds node'.id link.input := by
      rw [hat, connectionsAt_of_node? hn]
      exact mem_connectionsOf_setLink hi (connection?_eq_some.2 ⟨producer, hp, rfl⟩)
    constructor
    · rintro ⟨k, hk, ha⟩
      by_cases hkc : k = consumer
      · exact (hmem.1 (hkc ▸ ha)).imp_right fun ⟨ha, hf⟩ => ⟨⟨k, hk, hkc ▸ ha⟩, hf⟩
      · rw [hother k hkc] at ha
        exact .inr ⟨⟨k, hk, ha⟩, not_feeds_of_ne hw hn hkc ha link.input⟩
    · rintro (ha | ⟨⟨k, hk, ha⟩, hf⟩)
      · exact ⟨consumer, hw.mem_handlesInOrder.2 (by simp [hn]), hmem.2 (.inl ha)⟩
      · by_cases hkc : k = consumer
        · exact ⟨consumer, hkc ▸ hk, hmem.2 (.inr ⟨hkc ▸ ha, hf⟩)⟩
        · exact ⟨k, hk, by rwa [hother k hkc]⟩
  rw [Description.put, ← hconnections, ← hnodes, ← hsettings]

/-- A disconnection succeeds exactly if the consumer is live. -/
theorem exists_disconnect_iff {input : Nat} :
    (∃ e, net.disconnect consumer input = .ok e) ↔ (net.node? consumer).isSome := by
  constructor
  · rintro ⟨e, h⟩
    obtain ⟨node, hn, -⟩ := disconnect_eq_ok h
    simp [hn]
  · intro hn
    obtain ⟨node, hn⟩ := Option.isSome_iff_exists.1 hn
    cases h : net.disconnect consumer input with
    | ok e => exact ⟨e, rfl⟩
    | error fault =>
      unfold disconnect at h
      rw [get_eq_ok.2 hn] at h
      cases h

/-- The connections of a node after the link of an input has been taken away. -/
theorem connectionsOf_dropLink (hlinks : node.LinksSound) (input : Nat) :
    net.connectionsOf (node.dropLink input)
      = (net.connectionsOf node).filter fun c => ¬ c.Feeds node.id input := by
  have hsame (l : Link) : net.connection? (node.dropLink input) l = net.connection? node l := rfl
  rw [connectionsOf, connectionsOf, List.filter_filterMap]
  refine List.filterMap_congr fun i hi => ?_
  rw [Node.link?_dropLink hlinks]
  cases hl : node.link? i with
  | none => simp
  | some l =>
    obtain rfl := (Node.link?_eq_some hl).2
    cases hc : net.connection? node l with
    | none => split <;> simp [hsame, hc]
    | some c =>
      have hf : c.Feeds node.id input ↔ l.input = input :=
        feeds_of_connection? (List.mem_range.1 hi) hc input
      by_cases hli : l.input = input
      · simp [hli, hc, hf.2 hli, Option.filter_some]
      · simp [hli, hsame, hc, hf, Option.filter_some]

/-- Taking the link of an input away cuts its connection out. -/
theorem describe_of_disconnect (hw : net.WellFormed) {input : Nat} {e : Edit (Option Link)}
    (h : net.disconnect consumer input = .ok e) (hn : net.node? consumer = some node) :
    e.network.describe = net.describe.cut node.id input := by
  obtain ⟨node', hn', -, he⟩ := disconnect_eq_ok h
  obtain rfl : node' = node := Option.some.inj (hn'.symm.trans hn)
  obtain ⟨hsettings, hnodes, hat, hother⟩ :=
    describe_modify hn (fun n => n.dropLink input) (node'.sameFace_dropLink input)
  simp only [← he] at hsettings hnodes hat hother
  have hconnections : e.network.describe.connections
      = net.describe.connections.filter fun c => ¬ c.Feeds node'.id input := by
    rw [describe_connections, describe_connections, List.filter_flatMap,
      show e.network.handlesInOrder = net.handlesInOrder by rw [he]; rfl]
    refine List.flatMap_congr fun k _ => ?_
    by_cases hk : k = consumer
    · rw [hk, hat, connectionsOf_dropLink (hw.linksSound consumer node' hn),
        connectionsAt_of_node? hn]
    · rw [hother k hk, eq_comm, List.filter_eq_self]
      intro c hc
      simpa using not_feeds_of_ne hw hn hk hc input
  rw [Description.cut, ← hconnections, ← hnodes, ← hsettings]

/-- The link of an input shows as the connection of that input. -/
theorem WellFormed.map_connection?_link? (hw : net.WellFormed)
    (hn : net.node? consumer = some node) (input : Nat) :
    (node.link? input).map (net.connection? node)
      = (net.describe.connection? node.id input).map some := by
  have hfind (c : Connection) : net.describe.connection? node.id input = some c ↔
      ∃ l, node.link? input = some l ∧ net.connection? node l = some c := by
    rw [hw.ordered_describe.connection?_eq_some_iff, describe_connections, List.mem_flatMap]
    constructor
    · rintro ⟨⟨k, -, hc⟩, hf⟩
      have hk : k = consumer := by
        by_contra hne
        exact not_feeds_of_ne hw hn hne hc input hf
      rw [hk, connectionsAt_of_node? hn] at hc
      obtain ⟨l, hl, hlink, hc⟩ := mem_connectionsOf.1 hc
      obtain rfl := (feeds_of_connection? hl hc input).1 hf
      exact ⟨l, hlink, hc⟩
    · rintro ⟨l, hl, hc⟩
      obtain ⟨hmem, rfl⟩ := Node.link?_eq_some hl
      have hi := (hw.linkSound consumer node hn l hmem).1
      refine ⟨⟨consumer, hw.mem_handlesInOrder.2 (by simp [hn]), ?_⟩,
        (feeds_of_connection? hi hc _).2 rfl⟩
      rw [connectionsAt_of_node? hn]
      exact mem_connectionsOf.2 ⟨l, hi, hl, hc⟩
  cases hl : node.link? input with
  | none =>
    have hnone : net.describe.connection? node.id input = none :=
      Option.eq_none_iff_forall_ne_some.2 fun c hc => by
        obtain ⟨l, hl', -⟩ := (hfind c).1 hc
        rw [hl] at hl'
        cases hl'
    rw [hnone]
    rfl
  | some l =>
    obtain ⟨-, p, type, hp, -⟩ := hw.linkSound consumer node hn l (Node.link?_eq_some hl).1
    have hc : net.connection? node l = some _ := connection?_eq_some.2 ⟨p, hp, rfl⟩
    rw [(hfind _).2 ⟨l, hl, hc⟩, Option.map_some, Option.map_some, hc]

end Links

/-! ### All edits -/

/-- When the edits of a network succeed, and what they do to its description.  A refused edit
    leaves the network as it is. -/
structure EditsDescription (net : Network) : Prop where
  /-- The connections stand in order, so that no input has two of them. -/
  ordered : net.describe.Ordered
  /-- A node can be added exactly if it is sound on its own and its name is neither that of a node
      nor that of the sink. -/
  exists_add_iff : ∀ node, (∃ e, net.add node = .ok e) ↔
    node.check = .ok () ∧ node.id ∉ net.describe.nodes.map NodeEntry.id ∧ node.id ≠ sinkName
  /-- An added node comes last, and it comes without connections. -/
  add : ∀ node e, net.add node = .ok e → e.network.describe = net.describe.append node.entry
  /-- An input can be fed exactly if both ends are live, the producer has the facet and the
      consumer the input. -/
  exists_connect_iff : ∀ consumer link, (∃ e, net.connect consumer link = .ok e) ↔
    ∃ producer node type, net.node? link.producer = some producer
      ∧ net.node? consumer = some node ∧ producer.facetType link.facet = .ok type
      ∧ link.input < node.inputCount
  /-- The input that is fed gets its connection, in its place or instead of an older one. -/
  connect : ∀ consumer link e, net.connect consumer link = .ok e →
    ∃ producer node, net.node? link.producer = some producer ∧ net.node? consumer = some node
      ∧ e.network.describe = net.describe.put
          ⟨producer.id, link.facet, node.id, UInt64.ofNat link.input⟩
  /-- A slot can be fed exactly if the producer is live and has the facet. -/
  exists_connectSlot_iff : ∀ slot h facet, (∃ e, net.connectSlot slot h facet = .ok e) ↔
    ∃ producer type, net.node? h = some producer ∧ producer.facetType facet = .ok type
  /-- The slot that is fed gets its connection. -/
  connectSlot : ∀ slot h facet e, net.connectSlot slot h facet = .ok e →
    ∃ producer, net.node? h = some producer
      ∧ e.network.describe = net.describe.put
          ⟨producer.id, facet, sinkName, UInt64.ofNat slot.index⟩
  /-- The link of an input can be taken away, if there is one, exactly if the consumer is live. -/
  exists_disconnect_iff : ∀ consumer input, (∃ e, net.disconnect consumer input = .ok e) ↔
    (net.node? consumer).isSome
  /-- The connection of the input is cut out and is the answer; without one nothing changes. -/
  disconnect : ∀ consumer input e, net.disconnect consumer input = .ok e →
    ∃ node, net.node? consumer = some node
      ∧ e.network.describe = net.describe.cut node.id input
      ∧ e.answer.map (net.connection? node) = (net.describe.connection? node.id input).map some
      ∧ (e.answer = none → e.network.describe = net.describe)
  /-- A node can be removed exactly if it is live and not the sink. -/
  exists_remove_iff : ∀ h, (∃ e, net.remove h = .ok e) ↔ h ≠ net.sink ∧ (net.node? h).isSome
  /-- A removed node is dropped with the connections from it and to it. -/
  remove : ∀ h e, net.remove h = .ok e →
    net.node? h = some e.answer ∧ e.network.describe = net.describe.drop e.answer.id

/-- The edits of every network that arises are edits of its description. -/
theorem Arises.editsDescription {net : Network} (h : net.Arises) : net.EditsDescription := by
  have hw := h.wellFormed
  obtain ⟨s, hs, hsface⟩ := hw.sink_live
  have hsink : s.id = sinkName := hsface.1
  have hslot (slot : Slot) : slot.index < s.inputCount := by
    rw [hsface.inputCount]
    cases slot <;> decide
  refine
    { ordered := hw.ordered_describe
      exists_add_iff := fun node => ?_
      add := fun node e he => describe_of_add hw he
      exists_connect_iff := fun consumer link => Network.exists_connect_iff
      connect := fun consumer link e he => ?_
      exists_connectSlot_iff := fun slot k facet => ?_
      connectSlot := fun slot k facet e he => ?_
      exists_disconnect_iff := fun consumer input => Network.exists_disconnect_iff
      disconnect := fun consumer input e he => ?_
      exists_remove_iff := fun k => Network.exists_remove_iff
      remove := fun k e he => ⟨(remove_eq_ok he).2.1, describe_of_remove hw he⟩ }
  · rw [hw.exists_add_iff, Description.names, List.mem_append, List.mem_singleton, not_or]
  · obtain ⟨⟨producer, _, hp, -⟩, ⟨node, hn, -⟩, -⟩ := connect_eq_ok he
    exact ⟨producer, node, hp, hn, describe_of_connect hw he hp hn⟩
  · refine Network.exists_connect_iff.trans ⟨?_, ?_⟩
    · rintro ⟨producer, _, type, hp, -, ht, -⟩
      exact ⟨producer, type, hp, ht⟩
    · rintro ⟨producer, type, hp, ht⟩
      exact ⟨producer, s, type, hp, hs, ht, hslot slot⟩
  · obtain ⟨⟨producer, _, hp, -⟩, -, -⟩ := connect_eq_ok he
    exact ⟨producer, hp, hsink ▸ describe_of_connect hw he hp hs⟩
  · obtain ⟨node, hn, ha, -⟩ := disconnect_eq_ok he
    have hcut := describe_of_disconnect hw he hn
    have hanswer := hw.map_connection?_link? hn input
    rw [← ha] at hanswer
    refine ⟨node, hn, hcut, hanswer, fun hnone => ?_⟩
    rw [hnone, Option.map_none, eq_comm, Option.map_eq_none_iff] at hanswer
    rw [hcut, Description.cut_of_connection?_eq_none hanswer]

/-- The edits of a network are those of its description also where a place is used again. -/
theorem editsDescription_reusedPlace : reusedPlace.Arises ∧ reusedPlace.EditsDescription := by
  have h : reusedPlace.Arises := (Arises.new {}).run (by decide +kernel)
  exact ⟨h, h.editsDescription⟩

end Network

end MaterialNet
