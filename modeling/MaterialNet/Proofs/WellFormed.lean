import MaterialNet.Network.Basic
import MaterialNet.Proofs.Action
import MaterialNet.Proofs.Arena
import MaterialNet.Proofs.Links

namespace MaterialNet.Network

/-!
# Well-formed networks

The arena, the index, the order and the links of a network have to agree with each other.  Every
edit is described by the nodes and names that there are afterwards, and from that it follows that
it keeps them in agreement.

* `WellFormed` — the parts of a network agree
* `add_eq_ok`, `remove_eq_ok`, `connect_eq_ok`, `disconnect_eq_ok` — what a successful edit does
* `WellFormed.add`, `WellFormed.remove`, `WellFormed.connect`, `WellFormed.disconnect` — it keeps a
  network well formed
-/

/-! ### The agreement of the parts -/

/-- A link of `consumer` feeds an input that there is, and reads a facet that a live node has. -/
def LinkSound (net : Network) (consumer : Node) (l : Link) : Prop :=
  l.input < consumer.inputCount
    ∧ ∃ producer type, net.node? l.producer = some producer
      ∧ producer.facetType l.facet = .ok type

/-- The parts of a network agree: the index and the order list the live nodes, the sink is one of
    them, all others are sound on their own, and every link is sound. -/
structure WellFormed (net : Network) : Prop where
  arena : net.arena.WellFormed
  find?_iff : ∀ id h, net.find? id = some h ↔ ∃ node, net.node? h = some node ∧ node.id = id
  order_nodup : net.order.toList.Nodup
  mem_order : ∀ h, h ∈ net.order.toList ↔ h ≠ net.sink ∧ (net.node? h).isSome
  sink_live : ∃ node, net.node? net.sink = some node ∧ Node.SameFace node .newSink
  check : ∀ h node, net.node? h = some node → h ≠ net.sink → node.check = .ok ()
  linksSound : ∀ h node, net.node? h = some node → node.LinksSound
  linkSound : ∀ h node, net.node? h = some node → ∀ l ∈ node.links, net.LinkSound node l

/-- A link stays sound where its producer is still live and neither end has got another face. -/
theorem LinkSound.of_live {net net' : Network} {c c' : Node} {l : Link} (h : net.LinkSound c l)
    (hc : Node.SameFace c' c)
    (hp : ∀ p, net.node? l.producer = some p →
      ∃ p', net'.node? l.producer = some p' ∧ Node.SameFace p' p) : net'.LinkSound c' l := by
  obtain ⟨hi, p, type, hp₁, ht⟩ := h
  obtain ⟨p', hp', hf⟩ := hp p hp₁
  exact ⟨by rw [hc.inputCount]; exact hi, p', type, hp', by rw [hf.facetType]; exact ht⟩

/-! ### What follows from the agreement -/

section WellFormed

variable {net : Network} (hw : net.WellFormed)
include hw

/-- The sink is found by its name. -/
theorem WellFormed.find?_sinkName : net.find? sinkName = some net.sink := by
  obtain ⟨s, hs, hf⟩ := hw.sink_live
  exact (hw.find?_iff sinkName net.sink).2 ⟨s, hs, hf.1⟩

/-- The handles in order are those of the live nodes. -/
theorem WellFormed.mem_handlesInOrder {h : Handle} :
    h ∈ net.handlesInOrder ↔ (net.node? h).isSome := by
  obtain ⟨s, hs, -⟩ := hw.sink_live
  simp only [handlesInOrder, List.mem_append, List.mem_singleton, hw.mem_order]
  constructor
  · rintro (h | rfl)
    · exact h.2
    · simp [hs]
  · intro hl
    by_cases he : h = net.sink
    · exact .inr he
    · exact .inl ⟨he, hl⟩

/-- No handle is listed twice. -/
theorem WellFormed.handlesInOrder_nodup : net.handlesInOrder.Nodup := by
  refine List.nodup_append.2 ⟨hw.order_nodup, List.nodup_singleton _, fun h hh s hs => ?_⟩
  rintro rfl
  exact ((hw.mem_order h).1 hh).1 (List.mem_singleton.1 hs)

/-- Two handles of nodes with one name are the same. -/
theorem WellFormed.handle_unique {h h' : Handle} {n n' : Node} (hn : net.node? h = some n)
    (hn' : net.node? h' = some n') (hid : n.id = n'.id) : h = h' := by
  have h₁ := (hw.find?_iff n.id h).2 ⟨n, hn, rfl⟩
  rw [hid, (hw.find?_iff n'.id h').2 ⟨n', hn', rfl⟩] at h₁
  exact (Option.some.inj h₁).symm

/-- Handles of two networks whose nodes have the same names are matched one to one. -/
theorem WellFormed.eq_iff_of_id_eq {net' : Network} (hw' : net'.WellFormed) {h k h' k' : Handle}
    {n m n' m' : Node} (hn : net.node? h = some n) (hn' : net'.node? h' = some n')
    (hid : n.id = n'.id) (hm : net.node? k = some m) (hm' : net'.node? k' = some m')
    (hid' : m.id = m'.id) : h = k ↔ h' = k' := by
  constructor
  · rintro rfl
    obtain rfl := Option.some.inj (hn.symm.trans hm)
    exact hw'.handle_unique hn' hm' (hid.symm.trans hid')
  · rintro rfl
    obtain rfl := Option.some.inj (hn'.symm.trans hm')
    exact hw.handle_unique hn hm (hid.trans hid'.symm)

/-- The sink is the only node of its kind. -/
theorem WellFormed.isSink_iff {h : Handle} {n : Node} (hn : net.node? h = some n) :
    n.isSink = true ↔ h = net.sink := by
  constructor
  · intro hs
    by_contra hne
    -- Any other node has passed its check, which refuses a second sink.
    have hc := hw.check h n hn hne
    unfold Node.check at hc
    obtain ⟨_, -, hc⟩ := bind_ok_iff.1 hc
    have hk : n.kind = .sink := of_decide_eq_true hs
    simp [Node.flaw?, hk] at hc
  · rintro rfl
    obtain ⟨s, hs, hf⟩ := hw.sink_live
    obtain rfl := Option.some.inj (hn.symm.trans hs)
    rw [hf.isSink]
    rfl

theorem WellFormed.isSink_eq_false {h : Handle} {n : Node} (hn : net.node? h = some n)
    (hne : h ≠ net.sink) : n.isSink = false := by
  rwa [Bool.eq_false_iff, ne_eq, hw.isSink_iff hn]

/-- No link reads the sink. -/
theorem WellFormed.producer_ne_sink {h : Handle} {n : Node} (hn : net.node? h = some n) {l : Link}
    (hl : l ∈ n.links) : l.producer ≠ net.sink := by
  obtain ⟨-, p, type, hp, ht⟩ := hw.linkSound h n hn l hl
  intro hs
  have hk : p.kind = .sink := of_decide_eq_true ((hw.isSink_iff hp).2 hs)
  simp [Node.facetType, hk] at ht

end WellFormed

/-! ### A new network -/

/-- A new network finds its sink and nothing else. -/
theorem find?_new (settings : Settings) (id : String) :
    (new settings).find? id = if id = sinkName then some (new settings).sink else none := by
  unfold find?
  show (Std.TreeMap.insert Std.TreeMap.empty sinkName _)[id]? = _
  rw [Std.TreeMap.getElem?_insert]
  by_cases h : id = sinkName
  · simp [h]
    rfl
  · have : ¬ sinkName = id := fun he => h he.symm
    simp only [Std.compare_eq_iff_eq, this, h, if_false]
    exact Std.TreeMap.getElem?_emptyc

/-- A new network has its sink and no other node. -/
theorem node?_new (settings : Settings) (h : Handle) :
    (new settings).node? h = if h = (new settings).sink then some .newSink else none := by
  show (Arena.empty.insert Node.newSink).1.get? h = _
  rw [Arena.get?_insert Arena.wellFormed_empty, Arena.get?_empty]
  rfl

/-- A new network is well formed. -/
theorem wellFormed_new (settings : Settings) : (new settings).WellFormed where
  arena := Arena.wellFormed_insert Arena.wellFormed_empty
  find?_iff id h := by
    rw [find?_new, node?_new]
    by_cases hid : id = sinkName <;> by_cases hh : h = (new settings).sink <;>
      simp_all [eq_comm, Node.newSink]
  order_nodup := List.nodup_nil
  mem_order h := by
    rw [node?_new]
    by_cases hh : h = (new settings).sink
    · simp [hh, new]
    · have horder : h ∉ (new settings).order.toList := List.not_mem_nil
      simp [hh, horder]
  sink_live := ⟨.newSink, by rw [node?_new, if_pos rfl], rfl, rfl, rfl⟩
  check h node hn hs := by simp [node?_new, hs] at hn
  -- The sink is the only node, and nothing feeds it yet.
  linksSound h node hn := by
    by_cases hh : h = (new settings).sink
    · simp only [node?_new, hh, if_true, Option.some.injEq] at hn
      subst hn
      exact List.nodup_nil
    · simp [node?_new, hh] at hn
  linkSound h node hn l hl := by
    by_cases hh : h = (new settings).sink
    · simp only [node?_new, hh, if_true, Option.some.injEq] at hn
      subst hn
      exact absurd hl List.not_mem_nil
    · simp [node?_new, hh] at hn

/-! ### Adding a node -/

section Add

variable {net : Network} {node : Node} {e : Edit Handle}

/-- What a successful addition has checked and done. -/
theorem add_eq_ok (h : net.add node = .ok e) :
    node.check = .ok () ∧ net.find? node.id = none
      ∧ e.answer = (net.arena.insert { node with links := [] }).2
      ∧ e.network = { net with
          arena := (net.arena.insert { node with links := [] }).1
          index := net.index.insert node.id (net.arena.insert { node with links := [] }).2
          order := net.order.push (net.arena.insert { node with links := [] }).2 } := by
  unfold add at h
  obtain ⟨_, hc, h⟩ := bind_ok_iff.1 h
  split at h
  · cases h
  · rename_i hn
    cases h
    refine ⟨hc, ?_, rfl, rfl⟩
    rw [Std.TreeMap.contains_eq_isSome_getElem?, Bool.not_eq_true, Option.isSome_eq_false_iff] at hn
    exact Option.isNone_iff_eq_none.1 hn

variable (hw : net.WellFormed) (h : net.add node = .ok e)
include hw h

/-- The handle of a new node has named none before. -/
theorem node?_answer_of_add : net.node? e.answer = none := by
  obtain ⟨-, -, ha, -⟩ := add_eq_ok h
  rw [ha]
  exact Arena.get?_insert_handle hw.arena

/-- Afterwards it names the new node, and all others are as before. -/
theorem node?_of_add (h' : Handle) : e.network.node? h'
    = if h' = e.answer then some { node with links := [] } else net.node? h' := by
  obtain ⟨-, -, ha, hn⟩ := add_eq_ok h
  rw [hn, ha]
  exact Arena.get?_insert hw.arena h'

omit hw in
theorem find?_of_add (id : String) :
    e.network.find? id = if id = node.id then some e.answer else net.find? id := by
  obtain ⟨-, -, ha, hn⟩ := add_eq_ok h
  rw [hn, ha]
  show (net.index.insert node.id _)[id]? = _
  rw [Std.TreeMap.getElem?_insert]
  simp only [Std.compare_eq_iff_eq, eq_comm (a := node.id)]
  rfl

omit hw in
theorem order_of_add : e.network.order.toList = net.order.toList ++ [e.answer] := by
  obtain ⟨-, -, ha, hn⟩ := add_eq_ok h
  rw [hn, ha]
  simp

omit hw in
theorem sink_of_add : e.network.sink = net.sink := by
  obtain ⟨-, -, -, hn⟩ := add_eq_ok h
  rw [hn]

/-- A node that was live before an addition is there unchanged. -/
theorem node?_of_add_of_live {h' : Handle} {n : Node} (hn : net.node? h' = some n) :
    e.network.node? h' = some n := by
  rw [node?_of_add hw h, if_neg, hn]
  rintro rfl
  rw [node?_answer_of_add hw h] at hn
  cases hn

/-- An addition keeps a network well formed. -/
theorem WellFormed.add : e.network.WellFormed where
  arena := by
    obtain ⟨-, -, -, hn⟩ := add_eq_ok h
    rw [hn]
    exact Arena.wellFormed_insert hw.arena
  find?_iff id h' := by
    have hnone := node?_answer_of_add hw h
    rw [find?_of_add h, node?_of_add hw h]
    by_cases hid : id = node.id <;> by_cases hh : h' = e.answer
    · simp [hid, hh]
    · -- The name is new, so no older node bears it.
      have hnew := (add_eq_ok h).2.1
      simp only [hid, hh, if_true, if_false, Option.some.injEq, eq_comm (a := e.answer), false_iff]
      rintro hex
      rw [(hw.find?_iff node.id h').2 hex] at hnew
      cases hnew
    · simp only [hid, hh, if_true, if_false, Option.some.injEq]
      constructor
      · intro hf
        obtain ⟨n, hn, -⟩ := (hw.find?_iff id e.answer).1 hf
        rw [hnone] at hn
        cases hn
      · rintro ⟨n, rfl, hn⟩
        exact absurd hn.symm hid
    · simp only [hid, hh, if_false]
      exact hw.find?_iff id h'
  order_nodup := by
    rw [order_of_add h]
    refine List.nodup_append.2 ⟨hw.order_nodup, List.nodup_singleton _, fun a ha b hb => ?_⟩
    -- All handles in the order name nodes that were live before.
    rintro rfl
    have hlive := ((hw.mem_order a).1 ha).2
    rw [List.mem_singleton.1 hb, node?_answer_of_add hw h] at hlive
    cases hlive
  mem_order h' := by
    rw [order_of_add h, List.mem_append, hw.mem_order, List.mem_singleton, sink_of_add h,
      node?_of_add hw h]
    by_cases hh : h' = e.answer
    · -- The sink was live before, so the new handle is not the sink's.
      obtain ⟨s, hs, -⟩ := hw.sink_live
      have hne : e.answer ≠ net.sink := by
        intro he
        rw [← he, node?_answer_of_add hw h] at hs
        cases hs
      simp [hh, hne]
    · simp [hh]
  sink_live := by
    obtain ⟨s, hs, hf⟩ := hw.sink_live
    exact ⟨s, by rw [sink_of_add h]; exact node?_of_add_of_live hw h hs, hf⟩
  check h' n hn hs := by
    rw [node?_of_add hw h] at hn
    rw [sink_of_add h] at hs
    split at hn
    · cases hn
      exact (add_eq_ok h).1
    · exact hw.check h' n hn hs
  linksSound h' n hn := by
    rw [node?_of_add hw h] at hn
    split at hn
    · -- A node is added without its links.
      cases hn
      exact List.nodup_nil
    · exact hw.linksSound h' n hn
  linkSound h' n hn l hl := by
    rw [node?_of_add hw h] at hn
    split at hn
    · cases hn
      exact absurd hl List.not_mem_nil
    · exact (hw.linkSound h' n hn l hl).of_live ⟨rfl, rfl, rfl⟩
        fun p hp => ⟨p, node?_of_add_of_live hw h hp, rfl, rfl, rfl⟩

end Add

/-! ### Removing a node -/

section Remove

variable {net : Network} {r : Handle} {e : Edit Node}

/-- What a successful removal has checked and done. -/
theorem remove_eq_ok (h : net.remove r = .ok e) :
    r ≠ net.sink ∧ net.node? r = some e.answer
      ∧ ∃ arena, net.arena.remove? r = some (arena, e.answer)
        ∧ e.network = { net with
            arena := arena.mapValues fun n => n.scrub r
            index := net.index.erase e.answer.id
            order := net.order.filter fun h' => h' ≠ r } := by
  unfold remove at h
  split at h
  · cases h
  · rename_i hs
    split at h
    · cases h
    · rename_i arena node hr
      cases h
      exact ⟨hs, (Arena.remove?_eq_some hr).1, arena, hr, rfl⟩

variable (hw : net.WellFormed) (h : net.remove r = .ok e)
include h

/-- Of the other nodes, those that read the removed one lose their links to it. -/
theorem node?_of_remove (h' : Handle) :
    e.network.node? h'
      = if h' = r then none else (net.node? h').map fun n => n.scrub r := by
  obtain ⟨-, -, arena, ha, hn⟩ := remove_eq_ok h
  rw [hn]
  show (arena.mapValues _).get? h' = _
  rw [Arena.get?_mapValues, Arena.get?_of_remove? ha]
  split <;> rfl

/-- What is left has lost the links that read the removed node. -/
theorem exists_scrub_of_remove {h' : Handle} {n : Node} (hn : e.network.node? h' = some n) :
    ∃ m, net.node? h' = some m ∧ n = m.scrub r := by
  rw [node?_of_remove h] at hn
  split at hn
  · cases hn
  · obtain ⟨m, hm, rfl⟩ := Option.map_eq_some_iff.1 hn
    exact ⟨m, hm, rfl⟩

/-- The name of the removed node is free again. -/
theorem find?_of_remove (id : String) :
    e.network.find? id = if id = e.answer.id then none else net.find? id := by
  obtain ⟨-, -, arena, ha, hn⟩ := remove_eq_ok h
  rw [hn]
  show (net.index.erase e.answer.id)[id]? = _
  rw [Std.TreeMap.getElem?_erase]
  simp only [Std.compare_eq_iff_eq, eq_comm (a := e.answer.id)]
  rfl

theorem sink_of_remove : e.network.sink = net.sink := by
  obtain ⟨-, -, arena, ha, hn⟩ := remove_eq_ok h
  rw [hn]

theorem order_of_remove :
    e.network.order.toList = net.order.toList.filter fun h' => h' ≠ r := by
  obtain ⟨-, -, arena, ha, hn⟩ := remove_eq_ok h
  rw [hn]
  simp

include hw

/-- A removal keeps a network well formed. -/
theorem WellFormed.remove : e.network.WellFormed where
  arena := by
    obtain ⟨-, -, arena, ha, hn⟩ := remove_eq_ok h
    rw [hn]
    exact Arena.wellFormed_mapValues (Arena.wellFormed_of_remove? hw.arena ha)
  find?_iff id h' := by
    have hr := (remove_eq_ok h).2.1
    rw [find?_of_remove h, node?_of_remove h]
    by_cases hid : id = e.answer.id <;> by_cases hh : h' = r
    · simp [hid, hh]
    · -- Only the removed node bore its name.
      simp only [hid, hh, if_true, if_false, Option.map_eq_some_iff, reduceCtorEq, false_iff]
      rintro ⟨_, ⟨n, hn, rfl⟩, hni⟩
      have h₁ := (hw.find?_iff e.answer.id h').2 ⟨n, hn, hni⟩
      have h₂ := (hw.find?_iff e.answer.id r).2 ⟨_, hr, rfl⟩
      rw [h₁] at h₂
      exact hh (Option.some.inj h₂)
    · simp only [hid, hh, if_true, if_false, reduceCtorEq, false_and, exists_false, iff_false]
      intro hf
      obtain ⟨n, hn, hni⟩ := (hw.find?_iff id r).1 hf
      rw [hr] at hn
      exact hid (by rw [← hni, Option.some.inj hn])
    · simp only [hid, hh, if_false, Option.map_eq_some_iff]
      rw [hw.find?_iff id h']
      constructor
      · rintro ⟨n, hn, hni⟩
        exact ⟨_, ⟨n, hn, rfl⟩, hni⟩
      · rintro ⟨_, ⟨n, hn, rfl⟩, hni⟩
        exact ⟨n, hn, hni⟩
  order_nodup := by
    rw [order_of_remove h]
    exact hw.order_nodup.filter _
  mem_order h' := by
    rw [order_of_remove h, List.mem_filter, hw.mem_order, sink_of_remove h, node?_of_remove h]
    by_cases hh : h' = r <;> simp [hh]
  sink_live := by
    obtain ⟨s, hs, hf⟩ := hw.sink_live
    refine ⟨s.scrub r, ?_, hf⟩
    rw [sink_of_remove h, node?_of_remove h, if_neg (Ne.symm (remove_eq_ok h).1), hs]
    rfl
  check h' n hn hs := by
    obtain ⟨m, hm, rfl⟩ := exists_scrub_of_remove h hn
    rw [sink_of_remove h] at hs
    rw [(m.sameFace_scrub r).check]
    exact hw.check h' m hm hs
  linksSound h' n hn := by
    obtain ⟨m, hm, rfl⟩ := exists_scrub_of_remove h hn
    exact Node.linksSound_scrub (hw.linksSound h' m hm)
  linkSound h' n hn l hl := by
    obtain ⟨m, hm, rfl⟩ := exists_scrub_of_remove h hn
    -- The links that are left do not read the removed node.
    obtain ⟨hl, hlr⟩ := Node.mem_links_scrub.1 hl
    refine (hw.linkSound h' m hm l hl).of_live (m.sameFace_scrub r) fun p hp => ?_
    exact ⟨p.scrub r, by rw [node?_of_remove h, if_neg hlr, hp]; rfl, p.sameFace_scrub r⟩

end Remove

/-! ### Changing links -/

/-- Changing the links of one node keeps a network well formed if the node keeps its face and its
    links stay sound. -/
theorem WellFormed.modify {net : Network} (hw : net.WellFormed) (consumer : Handle)
    (f : Node → Node) (hface : ∀ n, Node.SameFace (f n) n)
    (hlinks : ∀ n, n.LinksSound → (f n).LinksSound)
    (hlink : ∀ n, net.node? consumer = some n → ∀ l ∈ (f n).links, net.LinkSound n l) :
    { net with arena := net.arena.modify consumer f : Network }.WellFormed := by
  have hnode (h : Handle) :
      { net with arena := net.arena.modify consumer f : Network }.node? h
        = if h = consumer then (net.node? consumer).map f else net.node? h :=
    Arena.get?_modify net.arena consumer f h
  -- Every live node is there afterwards, with the same face.
  have hlive {h : Handle} {n : Node} (hn : net.node? h = some n) :
      ∃ n', { net with arena := net.arena.modify consumer f : Network }.node? h = some n'
        ∧ Node.SameFace n' n := by
    rw [hnode]
    split
    · rename_i hh
      exact ⟨f n, by rw [← hh, hn]; rfl, hface n⟩
    · exact ⟨n, hn, rfl, rfl, rfl⟩
  -- Conversely, every node was there before.
  have hback {h : Handle} {n' : Node}
      (hn : { net with arena := net.arena.modify consumer f : Network }.node? h = some n') :
      ∃ n, net.node? h = some n ∧ Node.SameFace n' n ∧ (h = consumer ∧ n' = f n ∨ n' = n) := by
    rw [hnode] at hn
    split at hn
    · rename_i hh
      obtain ⟨n, hm, rfl⟩ := Option.map_eq_some_iff.1 hn
      exact ⟨n, by rw [hh, hm], hface n, .inl ⟨hh, rfl⟩⟩
    · exact ⟨n', hn, ⟨rfl, rfl, rfl⟩, .inr rfl⟩
  refine
    { arena := Arena.wellFormed_modify hw.arena
      find?_iff := fun id h => ?_
      order_nodup := hw.order_nodup
      mem_order := fun h => ?_
      sink_live := ?_
      check := fun h n' hn' hs => ?_
      linksSound := fun h n' hn' => ?_
      linkSound := fun h n' hn' l hl => ?_ }
  · refine (hw.find?_iff id h).trans ⟨?_, ?_⟩
    · rintro ⟨n, hn, rfl⟩
      obtain ⟨n', hn', hf⟩ := hlive hn
      exact ⟨n', hn', hf.1⟩
    · rintro ⟨n', hn', rfl⟩
      obtain ⟨n, hn, hf, -⟩ := hback hn'
      exact ⟨n, hn, hf.1.symm⟩
  · refine (hw.mem_order h).trans (and_congr_right fun _ => ?_)
    simp only [Option.isSome_iff_exists]
    constructor
    · rintro ⟨n, hn⟩
      obtain ⟨n', hn', -⟩ := hlive hn
      exact ⟨n', hn'⟩
    · rintro ⟨n', hn'⟩
      obtain ⟨n, hn, -⟩ := hback hn'
      exact ⟨n, hn⟩
  · obtain ⟨s, hs, hf⟩ := hw.sink_live
    obtain ⟨s', hs', hf'⟩ := hlive hs
    exact ⟨s', hs', hf'.1.trans hf.1, hf'.2.1.trans hf.2.1, hf'.2.2.trans hf.2.2⟩
  · obtain ⟨n, hn, hf, -⟩ := hback hn'
    rw [hf.check]
    exact hw.check h n hn hs
  · obtain ⟨n, hn, -, ⟨-, rfl⟩ | rfl⟩ := hback hn'
    · exact hlinks n (hw.linksSound h n hn)
    · exact hw.linksSound h _ hn
  · obtain ⟨n, hn, hf, ⟨rfl, rfl⟩ | rfl⟩ := hback hn'
    · exact (hlink n hn l hl).of_live hf fun p hp => hlive hp
    · exact (hw.linkSound h _ hn l hl).of_live hf fun p hp => hlive hp

theorem get_eq_ok {net : Network} {h : Handle} {node : Node} :
    net.get h = .ok node ↔ net.node? h = some node := by
  unfold get
  cases net.node? h <;> simp

theorem get_eq_error {net : Network} {h : Handle} {fault : Fault} :
    net.get h = .error fault ↔ net.node? h = none ∧ fault = .staleHandle h := by
  unfold get
  cases net.node? h <;> simp [eq_comm]

/-- What a successful connection has checked and done. -/
theorem connect_eq_ok {net : Network} {consumer : Handle} {link : Link} {e : Edit Unit}
    (h : net.connect consumer link = .ok e) :
    (∃ producer type, net.node? link.producer = some producer
        ∧ producer.facetType link.facet = .ok type)
      ∧ (∃ node, net.node? consumer = some node ∧ link.input < node.inputCount)
      ∧ e.network = { net with arena := net.arena.modify consumer fun n => n.setLink link } := by
  unfold connect at h
  obtain ⟨producer, hp, h⟩ := bind_ok_iff.1 h
  obtain ⟨type, ht, h⟩ := bind_ok_iff.1 h
  obtain ⟨node, hn, h⟩ := bind_ok_iff.1 h
  split at h
  · cases h
  · rename_i hi
    cases h
    exact ⟨⟨producer, type, get_eq_ok.1 hp, ht⟩, ⟨node, get_eq_ok.1 hn, Nat.not_le.1 hi⟩, rfl⟩

/-- A connection keeps a network well formed. -/
theorem WellFormed.connect {net : Network} (hw : net.WellFormed) {consumer : Handle} {link : Link}
    {e : Edit Unit} (h : net.connect consumer link = .ok e) : e.network.WellFormed := by
  obtain ⟨⟨producer, type, hp, ht⟩, ⟨node, hn, hi⟩, he⟩ := connect_eq_ok h
  rw [he]
  refine hw.modify consumer _ (fun n => n.sameFace_setLink link)
    (fun n => Node.linksSound_setLink) fun n hn' l hl => ?_
  obtain rfl : n = node := Option.some.inj (hn'.symm.trans hn)
  rcases Node.mem_links_setLink hl with rfl | hl
  · exact ⟨hi, producer, type, hp, ht⟩
  · exact hw.linkSound consumer n hn l hl

/-- What a successful disconnection has checked and done. -/
theorem disconnect_eq_ok {net : Network} {consumer : Handle} {input : Nat}
    {e : Edit (Option Link)} (h : net.disconnect consumer input = .ok e) :
    ∃ node, net.node? consumer = some node ∧ e.answer = node.link? input
      ∧ e.network = { net with arena := net.arena.modify consumer fun n => n.dropLink input } := by
  unfold disconnect at h
  obtain ⟨node, hn, h⟩ := bind_ok_iff.1 h
  cases h
  exact ⟨node, get_eq_ok.1 hn, rfl, rfl⟩

/-- A disconnection keeps a network well formed. -/
theorem WellFormed.disconnect {net : Network} (hw : net.WellFormed) {consumer : Handle}
    {input : Nat} {e : Edit (Option Link)} (h : net.disconnect consumer input = .ok e) :
    e.network.WellFormed := by
  obtain ⟨node, hn, -, he⟩ := disconnect_eq_ok h
  rw [he]
  refine hw.modify consumer _ (fun n => n.sameFace_dropLink input)
    (fun n => Node.linksSound_dropLink) fun n hn' l hl => ?_
  exact hw.linkSound consumer n hn' l (Node.mem_links_dropLink hl)

/-- The settings do not matter for the agreement of the other parts. -/
theorem WellFormed.withSettings {net : Network} (hw : net.WellFormed) (settings : Settings) :
    (net.withSettings settings).WellFormed :=
  ⟨hw.arena, hw.find?_iff, hw.order_nodup, hw.mem_order, hw.sink_live, hw.check, hw.linksSound,
    hw.linkSound⟩

end MaterialNet.Network
