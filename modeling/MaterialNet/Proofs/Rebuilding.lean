import MaterialNet.Proofs.Describing
import MaterialNet.Proofs.Guarding
import MaterialNet.Proofs.Likeness

namespace MaterialNet

/-!
# Networks that are described and built again

A network that is built from the description of another one has its nodes at other handles, and
its links in the order of their inputs.  Neither shows: two networks with one description answer
every question alike, also where the answer is a fault.

* `Network.build_describe` — a description is accepted, and is the description of what is built
* `Network.Pairing.search_sameEnd` — the search for cycles does not depend on handles
* `Network.sameAnswers_of_describe_eq` — networks with one description answer alike
* `Network.Arises.rebuilds` — so a network and its copy do
-/

/-- The node of an entry, without links. -/
def NodeEntry.node (entry : NodeEntry) : Node := ⟨entry.id, entry.storage, entry.kind, []⟩

/-- The entries of a description, the sink's last. -/
def Description.entries (d : Description) : List NodeEntry := d.nodes ++ [Node.newSink.entry]

theorem Node.sameFace_of_entry_eq {n : Node} {entry : NodeEntry} (h : n.entry = entry) :
    Node.SameFace n entry.node := by
  subst h
  exact ⟨rfl, rfl, rfl⟩

/-- Both ends of a connection are listed, with the facet that it reads and the input that it
    feeds. -/
def Description.Joins (d : Description) (c : Connection) : Prop :=
  ∃ producer ∈ d.entries, ∃ consumer ∈ d.entries, ∃ type,
    producer.id = c.source ∧ consumer.id = c.target
      ∧ producer.node.facetType c.facet = .ok type ∧ c.input.toNat < consumer.node.inputCount

namespace Network

variable {net net' : Network}

/-! ### Building what has been described -/

/-- The entries of a description are those of the live nodes. -/
theorem WellFormed.mem_entries (hw : net.WellFormed) {entry : NodeEntry} :
    entry ∈ net.describe.entries ↔ ∃ h n, net.node? h = some n ∧ n.entry = entry := by
  obtain ⟨s, hs, hface⟩ := hw.sink_live
  have hsink : s.entry = Node.newSink.entry := by
    rw [Node.entry, hface.1, hface.2.1, hface.2.2]
    rfl
  simp only [Description.entries, describe, List.mem_append, List.mem_filterMap,
    List.mem_singleton, Option.map_eq_some_iff, hw.mem_order]
  constructor
  · rintro (⟨h, -, n, hn, he⟩ | rfl)
    · exact ⟨h, n, hn, he⟩
    · exact ⟨net.sink, s, hs, hsink⟩
  · rintro ⟨h, n, hn, rfl⟩
    -- The sink is described last, and every other node where it stands in order.
    by_cases hh : h = net.sink
    · subst hh
      obtain rfl := Option.some.inj (hs.symm.trans hn)
      exact .inr hsink
    · exact .inl ⟨h, ⟨hh, by simp [hn]⟩, n, hn, rfl⟩

/-- The connections of a description join nodes of the description. -/
theorem WellFormed.joins_describe (hw : net.WellFormed) {c : Connection}
    (hc : c ∈ net.describe.connections) : net.describe.Joins c := by
  obtain ⟨h, node, l, producer, hn, hl, hp, rfl⟩ := hw.mem_connections.1 hc
  obtain ⟨hi, p, type, hp', ht⟩ := hw.linkSound h node hn l hl
  obtain rfl := Option.some.inj (hp.symm.trans hp')
  refine ⟨_, hw.mem_entries.2 ⟨_, producer, hp, rfl⟩, _, hw.mem_entries.2 ⟨_, node, hn, rfl⟩, type,
    rfl, rfl, ?_, ?_⟩
  · rw [← (Node.sameFace_of_entry_eq rfl).facetType]
    exact ht
  · rw [toNat_ofNat_input hi, ← (Node.sameFace_of_entry_eq rfl).inputCount]
    exact hi

theorem describe_new (settings : Settings) : (new settings).describe = ⟨settings, [], []⟩ := by
  have hconnections : (new settings).describe.connections = [] := by
    have hs : (new settings).node? (new settings).sink = some .newSink := by
      rw [node?_new, if_pos rfl]
    show [(new settings).sink].flatMap (new settings).connectionsAt = []
    rw [List.flatMap_singleton, connectionsAt_of_node? hs]
    rfl
  show Description.mk settings [] (new settings).describe.connections = _
  rw [hconnections]

/-- Nodes that are sound and have new names are all added. -/
theorem exists_addEntries (hw : net.WellFormed) {es : List NodeEntry}
    (hcheck : ∀ e ∈ es, e.node.check = .ok ()) (hnames : (es.map NodeEntry.id).Nodup)
    (hnew : ∀ e ∈ es, e.id ∉ net.describe.names) :
    ∃ net', (addEntries es).Gives net () net'
      ∧ net'.describe = { net.describe with nodes := net.describe.nodes ++ es } := by
  induction es generalizing net with
  | nil => exact ⟨net, Action.gives_pure.2 ⟨rfl, rfl⟩, by rw [List.append_nil]⟩
  | cons entry rest ih =>
    obtain ⟨e, he⟩ := hw.exists_add_iff.2
      ⟨hcheck entry List.mem_cons_self, hnew entry List.mem_cons_self⟩
    have hdescribe : e.network.describe = net.describe.append entry := describe_of_add hw he
    obtain ⟨hid, hrest⟩ := List.nodup_cons.1 hnames
    obtain ⟨net', hg, hd⟩ := ih (hw.add he)
      (fun x hx => hcheck x (List.mem_cons_of_mem _ hx)) hrest fun x hx => by
        -- The name that has been taken now is that of the first entry.
        have hold := hnew x (List.mem_cons_of_mem _ hx)
        have hne : x.id ≠ entry.id := fun heq => hid (heq ▸ List.mem_map_of_mem hx)
        rw [hdescribe]
        simp only [Description.names, Description.append, List.map_append, List.mem_append,
          not_or] at hold ⊢
        exact ⟨⟨hold.1, by simpa using hne⟩, hold.2⟩
    refine ⟨net', Action.gives_bind.2 ⟨_, _, gives_apply.2 ⟨e, he, rfl, rfl⟩, hg⟩, ?_⟩
    rw [hd, hdescribe]
    simp [Description.append]

/-- The connections of a description that are still missing are all made, each behind those that
    are there. -/
theorem exists_addConnections {d : Description} (hd : d.Ordered)
    (hjoins : ∀ c ∈ d.connections, d.Joins c) {made todo : List Connection}
    (hsplit : d.connections = made ++ todo) (hw : net.WellFormed)
    (hnet : net.describe = { d with connections := made }) :
    ∃ net', (addConnections todo).Gives net () net' ∧ net'.describe = d := by
  induction todo generalizing net made with
  | nil =>
    refine ⟨net, Action.gives_pure.2 ⟨rfl, rfl⟩, ?_⟩
    rw [hnet, ← (hsplit.trans (List.append_nil made))]
  | cons c rest ih =>
    obtain ⟨p, hp, q, hq, type, hpid, hqid, ht, hi⟩ := hjoins c (by simp [hsplit])
    have hentries : d.entries = net.describe.entries := by rw [hnet]; rfl
    rw [hentries] at hp hq
    obtain ⟨h, n, hn, hne⟩ := hw.mem_entries.1 hp
    obtain ⟨k, m, hm, hme⟩ := hw.mem_entries.1 hq
    have hnid : n.id = c.source := (congrArg NodeEntry.id hne).trans hpid
    have hmid : m.id = c.target := (congrArg NodeEntry.id hme).trans hqid
    obtain ⟨e, he⟩ : ∃ e, net.connect k ⟨h, c.facet, c.input.toNat⟩ = .ok e := by
      refine exists_connect_iff.2 ⟨n, m, type, hn, hm, ?_, ?_⟩
      · rw [(Node.sameFace_of_entry_eq hne).facetType]
        exact ht
      · rw [(Node.sameFace_of_entry_eq hme).inputCount]
        exact hi
    have hput : e.network.describe = net.describe.put
        ⟨n.id, c.facet, m.id, UInt64.ofNat c.input.toNat⟩ := describe_of_connect hw he hn hm
    rw [hnid, hmid, UInt64.ofNat_toNat, hnet] at hput
    -- The connection comes after all that have been made before it.
    have hbefore : ∀ x ∈ made, d.Before x c := by
      rw [Description.Ordered, hsplit, List.pairwise_append] at hd
      exact fun x hx => hd.2.2 x hx c List.mem_cons_self
    have hmade : e.network.describe = { d with connections := made ++ [c] } := by
      rw [hput]
      exact congrArg (Description.mk d.settings d.nodes)
        (Description.insertConnection_of_forall_before hbefore)
    have hsplit' : d.connections = (made ++ [c]) ++ rest := by simp [hsplit]
    obtain ⟨net', hg, hd'⟩ := ih hsplit' (hw.connect he) hmade
    refine ⟨net', Action.gives_bind.2 ⟨(), _, gives_apply.2 ⟨e, ?_, rfl, rfl⟩, hg⟩, hd'⟩
    have hfind : net.find? c.source = some h := (hw.find?_iff _ _).2 ⟨n, hn, hnid⟩
    have hfind' : net.find? c.target = some k := (hw.find?_iff _ _).2 ⟨m, hm, hmid⟩
    simp only [connectByName, resolve, hfind, hfind']
    exact he

/-- What has been described can be built, and is described in the same way. -/
theorem WellFormed.build_describe (hw : net.WellFormed) :
    (build net.describe).result = .ok () ∧ (build net.describe).state.describe = net.describe := by
  have hnames := hw.names_nodup
  rw [Description.names, List.nodup_append] at hnames
  have hnew : (new net.describe.settings).describe.names = [sinkName] := by
    rw [describe_new]
    rfl
  have hcheck : ∀ entry ∈ net.describe.nodes, entry.node.check = .ok () := fun entry he => by
    obtain ⟨h, hh, he⟩ := List.mem_filterMap.1 he
    obtain ⟨n, hn, rfl⟩ := Option.map_eq_some_iff.1 he
    rw [← (Node.sameFace_of_entry_eq rfl).check]
    exact hw.check h n hn ((hw.mem_order h).1 hh).1
  -- First the nodes are added, all under names of their own, and then they are linked.
  obtain ⟨net₁, hentries, hd₁⟩ := exists_addEntries (wellFormed_new net.describe.settings) hcheck
    hnames.1 fun entry he hmem => by
      rw [hnew] at hmem
      exact hnames.2.2 _ (List.mem_map_of_mem he) _ hmem rfl
  have hw₁ := wellFormed_of_addEntries (wellFormed_new _) hentries
  have hnone : net.describe.connections = [] ++ net.describe.connections := rfl
  obtain ⟨net₂, hconnections, hd₂⟩ := exists_addConnections hw.ordered_describe
    (fun c => hw.joins_describe) hnone hw₁ (by rw [hd₁, describe_new]; rfl)
  have hg : (addAll net.describe).Gives (new net.describe.settings) () net₂ :=
    Action.gives_bind.2 ⟨(), net₁, hentries,
      Action.gives_bind.2 ⟨(), net₂, hconnections, Action.gives_note.2 rfl⟩⟩
  refine ⟨hg.1, ?_⟩
  rw [show (build net.describe).state = net₂ from hg.2, hd₂]

/-! ### Namesakes -/

/-- Live nodes of two networks with one name. -/
def Namesakes (net net' : Network) (h h' : Handle) : Prop :=
  ∃ n n', net.node? h = some n ∧ net'.node? h' = some n' ∧ n.id = n'.id

/-- The links of namesakes correspond where the descriptions of the networks are the same. -/
theorem links_of_describe_eq (hw : net.WellFormed) (hw' : net'.WellFormed)
    (hd : net.describe = net'.describe) {h h' : Handle} {n n' : Node} (hn : net.node? h = some n)
    (hn' : net'.node? h' = some n') (hid : n.id = n'.id) (input : Nat) :
    n.link? input = none ∧ n'.link? input = none
      ∨ ∃ l l', n.link? input = some l ∧ n'.link? input = some l' ∧ l.facet = l'.facet
        ∧ Namesakes net net' l.producer l'.producer := by
  have hshow := hw.map_connection?_link? hn input
  rw [hd, hid, ← hw'.map_connection?_link? hn' input] at hshow
  -- An input is described by the connection that feeds it, if there is one.
  cases hl : n.link? input with
  | none =>
    rw [hl, Option.map_none, eq_comm, Option.map_eq_none_iff] at hshow
    exact .inl ⟨rfl, hshow⟩
  | some l =>
    rw [hl, Option.map_some, eq_comm, Option.map_eq_some_iff] at hshow
    obtain ⟨l', hl', hc⟩ := hshow
    obtain ⟨-, p, _, hp, -⟩ := hw.linkSound h n hn l (Node.link?_eq_some hl).1
    rw [connection?_eq_some.2 ⟨p, hp, rfl⟩] at hc
    obtain ⟨p', hp', he⟩ := connection?_eq_some.1 hc
    obtain ⟨hpid, hfacet, -, -⟩ := Connection.mk.inj he
    exact .inr ⟨l, l', rfl, hl', hfacet, p, p', hp, hp', hpid⟩

/-- Namesakes are the same nodes where the descriptions of the networks are the same. -/
theorem pairing_of_describe_eq (hw : net.WellFormed) (hw' : net'.WellFormed)
    (hd : net.describe = net'.describe) : Pairing net net' (Namesakes net net') where
  sink := by
    obtain ⟨s, hs, hf⟩ := hw.sink_live
    obtain ⟨s', hs', hf'⟩ := hw'.sink_live
    exact ⟨s, s', hs, hs', hf.1.trans hf'.1.symm⟩
  nodes h h' := by
    rintro ⟨n, n', hn, hn', hid⟩
    -- The entry of a node is that of its namesake, as no other node has its name.
    have hentry : n.entry = n'.entry := by
      have hmem : n.entry ∈ net'.describe.entries := hd ▸ hw.mem_entries.2 ⟨h, n, hn, rfl⟩
      obtain ⟨k, m, hm, hme⟩ := hw'.mem_entries.1 hmem
      obtain rfl := hw'.handle_unique hm hn' ((congrArg NodeEntry.id hme).trans hid)
      rw [← hme, Option.some.inj (hm.symm.trans hn')]
    obtain ⟨-, hstorage, hkind⟩ := NodeEntry.mk.inj hentry
    exact ⟨n, n', hn, hn', hid, hstorage, hkind, links_of_describe_eq hw hw' hd hn hn' hid⟩

/-- Two lists of which the same is shown, item by item. -/
theorem forall₂_of_filterMap_eq {α β γ : Type} {f : α → Option γ} {g : β → Option γ} {l : List α}
    {l' : List β} (hf : ∀ a ∈ l, (f a).isSome) (hg : ∀ b ∈ l', (g b).isSome)
    (h : l.filterMap f = l'.filterMap g) :
    List.Forall₂ (fun a b => ∃ c, f a = some c ∧ g b = some c) l l' := by
  induction l generalizing l' with
  | nil =>
    cases l' with
    | nil => exact .nil
    | cons b rest' =>
      obtain ⟨c, hc⟩ := Option.isSome_iff_exists.1 (hg b List.mem_cons_self)
      simp [hc] at h
  | cons a rest ih =>
    obtain ⟨c, hc⟩ := Option.isSome_iff_exists.1 (hf a List.mem_cons_self)
    cases l' with
    | nil => simp [hc] at h
    | cons b rest' =>
      obtain ⟨c', hc'⟩ := Option.isSome_iff_exists.1 (hg b List.mem_cons_self)
      simp only [List.filterMap_cons, hc, hc', List.cons.injEq] at h
      exact .cons ⟨c, hc, h.1 ▸ hc'⟩ (ih (fun x hx => hf x (List.mem_cons_of_mem _ hx))
        (fun x hx => hg x (List.mem_cons_of_mem _ hx)) h.2)

/-- The nodes of networks with one description are namesakes, one after the other. -/
theorem namesakes_handlesInOrder (hw : net.WellFormed) (hw' : net'.WellFormed)
    (hd : net.describe = net'.describe) :
    List.Forall₂ (Namesakes net net') net.handlesInOrder net'.handlesInOrder := by
  -- The description lists the names in the order of the handles.
  have hnames : net.handlesInOrder.filterMap (fun h => (net.node? h).map Node.id)
      = net'.handlesInOrder.filterMap fun h => (net'.node? h).map Node.id := by
    rw [← hw.names_describe, ← hw'.names_describe, hd]
  have hlive {m : Network} (hm : m.WellFormed) :
      ∀ h ∈ m.handlesInOrder, ((m.node? h).map Node.id).isSome := by
    intro h hh
    rw [Option.isSome_map]
    exact hm.mem_handlesInOrder.1 hh
  refine (forall₂_of_filterMap_eq (hlive hw) (hlive hw') hnames).imp ?_
  rintro h h' ⟨id, hid, hid'⟩
  obtain ⟨n, hn, rfl⟩ := Option.map_eq_some_iff.1 hid
  obtain ⟨n', hn', he⟩ := Option.map_eq_some_iff.1 hid'
  exact ⟨n, n', hn, hn', he.symm⟩

/-! ### Searches of paired networks -/

section Search

variable (hw : net.WellFormed) (hw' : net'.WellFormed) {R : Handle → Handle → Prop}
  (hp : Pairing net net' R)

include hw hw' hp in
/-- A pairing is one to one. -/
theorem Pairing.eq_iff {h h' k k' : Handle} (hr : R h h') (hr' : R k k') : h = k ↔ h' = k' := by
  obtain ⟨n, n', hn, hn', hid, -⟩ := hp.nodes h h' hr
  obtain ⟨m, m', hm, hm', hid', -⟩ := hp.nodes k k' hr'
  exact hw.eq_iff_of_id_eq hw' hn hn' hid hm hm' hid'

/-- Two sets of handles that agree on pairs. -/
def SameOn (R : Handle → Handle → Prop) (seen seen' : Visited) : Prop :=
  ∀ h h', R h h' → (seen.contains h = true ↔ seen'.contains h' = true)

/-- Two frames of a search for paired nodes, with paired nodes pending. -/
def SameFrame (R : Handle → Handle → Prop) (f f' : Frame) : Prop :=
  R f.handle f'.handle ∧ List.Forall₂ R f.pending f'.pending

/-- Two searches that end alike: with one fault, or with sets that agree on pairs. -/
def SameEnd (R : Handle → Handle → Prop) : Except Fault Visited → Except Fault Visited → Prop
  | .ok closed, .ok closed' => SameOn R closed closed'
  | .error fault, .error fault' => fault = fault'
  | _, _ => False

include hw hw' hp

theorem Pairing.sameOn_insert {seen seen' : Visited} (hs : SameOn R seen seen') {h h' : Handle}
    (hr : R h h') : SameOn R (seen.insert h) (seen'.insert h') := by
  intro k k' hk
  simp only [Std.TreeSet.contains_insert, Bool.or_eq_true, beq_iff_eq, Std.compare_eq_iff_eq,
    hs k k' hk, hp.eq_iff hw hw' hr hk]

theorem Pairing.sameOn_erase {seen seen' : Visited} (hs : SameOn R seen seen') {h h' : Handle}
    (hr : R h h') : SameOn R (seen.erase h) (seen'.erase h') := by
  intro k k' hk
  simp only [Std.TreeSet.contains_erase, Bool.and_eq_true, bne_iff_ne, ne_eq,
    Std.compare_eq_iff_eq, hs k k' hk, hp.eq_iff hw hw' hr hk]

/-- Searches of paired networks take the same steps. -/
theorem Pairing.search_sameEnd {stack stack' : List Frame} {opened opened' closed closed' : Visited}
    (hstack : List.Forall₂ (SameFrame R) stack stack') (hopened : SameOn R opened opened')
    (hclosed : SameOn R closed closed') :
    SameEnd R (net.search stack opened closed) (net'.search stack' opened' closed') := by
  fun_induction Network.search net stack opened closed generalizing stack' opened' closed' with
  | case1 =>
    cases hstack
    rw [Network.search]
    exact hclosed
  | case2 opened closed h rest ih =>
    obtain ⟨⟨h', _⟩, rest', ⟨hr, hpending⟩, hrest, rfl⟩ := List.forall₂_cons_left_iff.1 hstack
    cases hpending
    rw [Network.search]
    exact ih hrest (hp.sameOn_erase hw hw' hopened hr) (hp.sameOn_insert hw hw' hclosed hr)
  | case3 opened closed h p pending rest hc ih =>
    obtain ⟨⟨h', _⟩, rest', ⟨hr, hpending⟩, hrest, rfl⟩ := List.forall₂_cons_left_iff.1 hstack
    obtain ⟨p', pending', hrp, hothers, rfl⟩ := List.forall₂_cons_left_iff.1 hpending
    rw [Network.search, if_pos ((hclosed p p' hrp).1 hc)]
    exact ih (.cons ⟨hr, hothers⟩ hrest) hopened hclosed
  | case4 opened closed h p pending rest hc fault hg =>
    obtain ⟨⟨h', _⟩, rest', ⟨hr, hpending⟩, hrest, rfl⟩ := List.forall₂_cons_left_iff.1 hstack
    obtain ⟨p', pending', hrp, hothers, rfl⟩ := List.forall₂_cons_left_iff.1 hpending
    -- A paired node is live.
    obtain ⟨n, n', hn, -⟩ := hp.nodes p p' hrp
    rw [get_eq_ok.2 hn] at hg
    cases hg
  | case5 opened closed h p pending rest hc node hg ho =>
    obtain ⟨⟨h', _⟩, rest', ⟨hr, hpending⟩, hrest, rfl⟩ := List.forall₂_cons_left_iff.1 hstack
    obtain ⟨p', pending', hrp, hothers, rfl⟩ := List.forall₂_cons_left_iff.1 hpending
    obtain ⟨n, n', hn, hn', hid, -⟩ := hp.nodes p p' hrp
    obtain rfl := Option.some.inj (hn.symm.trans (get_eq_ok.1 hg))
    rw [search_meet (mt (hclosed p p' hrp).2 hc) hn', if_pos ((hopened p p' hrp).1 ho)]
    exact congrArg Fault.cyclic hid
  | case6 opened closed h p pending rest hc node hg ho ih =>
    obtain ⟨⟨h', _⟩, rest', ⟨hr, hpending⟩, hrest, rfl⟩ := List.forall₂_cons_left_iff.1 hstack
    obtain ⟨p', pending', hrp, hothers, rfl⟩ := List.forall₂_cons_left_iff.1 hpending
    obtain ⟨n, n', hn, hn', hid, hstorage, hkind, hlinks⟩ := hp.nodes p p' hrp
    obtain rfl := Option.some.inj (hn.symm.trans (get_eq_ok.1 hg))
    rw [search_meet (mt (hclosed p p' hrp).2 hc) hn', if_neg (mt (hopened p p' hrp).2 ho)]
    exact ih (.cons ⟨hrp, producers_of_links hkind hlinks⟩ (.cons ⟨hr, hothers⟩ hrest))
      (hp.sameOn_insert hw hw' hopened hrp) hclosed

/-- Searches from paired nodes come out alike. -/
theorem Pairing.checkAcyclicFrom_eq {starts starts' : List Handle}
    (hstarts : List.Forall₂ R starts starts') {closed closed' : Visited}
    (hclosed : SameOn R closed closed') :
    net.checkAcyclicFrom closed starts = net'.checkAcyclicFrom closed' starts' := by
  induction hstarts generalizing closed closed' with
  | nil => rfl
  | @cons start start' rest rest' hr _ ih =>
    unfold checkAcyclicFrom
    by_cases hc : closed.contains start = true
    · rw [if_pos hc, if_pos ((hclosed _ _ hr).1 hc)]
      exact ih hclosed
    · rw [if_neg hc, if_neg (mt (hclosed _ _ hr).2 hc)]
      obtain ⟨n, n', hn, hn', hid, hstorage, hkind, hlinks⟩ := hp.nodes start start' hr
      rw [get_eq_ok.2 hn, get_eq_ok.2 hn']
      have hempty : SameOn R .empty .empty := fun _ _ _ => by simp
      have hstart : SameFrame R ⟨start, n.producers⟩ ⟨start', n'.producers⟩ :=
        ⟨hr, producers_of_links hkind hlinks⟩
      have hend := hp.search_sameEnd hw hw' (.cons hstart .nil)
        (hp.sameOn_insert hw hw' hempty hr) hclosed
      simp only [bind, Except.bind]
      -- The searches end alike: both find a cycle, or both close related sets.
      cases hs : net.search [⟨start, n.producers⟩] (Std.TreeSet.empty.insert start) closed <;>
        cases hs' : net'.search [⟨start', n'.producers⟩] (Std.TreeSet.empty.insert start') closed'
      all_goals rw [hs, hs'] at hend
      · exact congrArg Except.error hend
      · exact hend.elim
      · exact hend.elim
      · exact ih hend

end Search

/-- The search for cycles comes to the same in networks with one description, down to the node
    that is named. -/
theorem checkAcyclic_eq_of_describe_eq (hw : net.WellFormed) (hw' : net'.WellFormed)
    (hd : net.describe = net'.describe) : net.checkAcyclic = net'.checkAcyclic :=
  (pairing_of_describe_eq hw hw' hd).checkAcyclicFrom_eq hw hw'
    (namesakes_handlesInOrder hw hw' hd) fun _ _ _ => by simp

/-! ### The same answers -/

/-- The names of the nodes in a list. -/
def namesOf (net : Network) (hs : List Handle) : List (Option String) :=
  hs.map fun h => (net.node? h).map Node.id

/-- Two networks that answer all questions alike, with the same values or the same faults. -/
structure SameAnswers (net net' : Network) : Prop where
  /-- The same about cycles. -/
  checkAcyclic : net.checkAcyclic = net'.checkAcyclic
  /-- The same programs and manifest. -/
  compile : net.compile.result = net'.compile.result
  /-- The same text of each stage. -/
  assemble : ∀ stage, (net.assemble stage).result = (net'.assemble stage).result
  /-- The same nodes that each stage needs, in the same order. -/
  reachable : ∀ stage,
    (net.reachable stage).map net.namesOf = (net'.reachable stage).map net'.namesOf

/-- Twins have one name. -/
theorem namesOf_twins {out out' : List Handle} (ht : TwinLists net net' out out') :
    net.namesOf out = net'.namesOf out' := by
  induction ht with
  | nil => rfl
  | cons ht _ ih =>
    obtain ⟨-, -, n, n', hn, hn', hid⟩ := ht
    exact congrArg₂ List.cons (by simp [hn, hn', hid]) ih

/-- Networks without cycles that have one live part list the same nodes for a stage. -/
theorem reachable_names_eq (hw : net.WellFormed) (hw' : net'.WellFormed) (hacyclic : net.Acyclic)
    (hacyclic' : net'.Acyclic) (hsame : SameLivePart net net') (stage : Stage) :
    (net.reachable stage).map net.namesOf = (net'.reachable stage).map net'.namesOf := by
  obtain ⟨sink, sink', hs, hs', hnode⟩ := (twins_sink hw hw').sameNode hw hw' hsame
  have hseen : TwinSets net net' ∅ ∅ := fun _ _ _ => Iff.rfl
  have hslots := hnode.slotProducers stage.slots
  obtain ⟨out, hout⟩ : ∃ out, net.reachable stage = .ok out := by
    obtain ⟨out, hout⟩ := exists_feeding hw hs stage.slots .empty
    exact ⟨out, bind_ok_iff.2 ⟨(), hw.checkAcyclic_eq_ok_iff.2 hacyclic,
      bind_ok_iff.2 ⟨sink, get_eq_ok.2 hs, hout⟩⟩⟩
  obtain ⟨out', hv, htwins⟩ :=
    visits_twins hw hw' hsame ((hw.reachable_eq_ok_iff hs).1 hout).2 hseen hslots
  rw [hout, (hw'.reachable_eq_ok_iff hs').2 ⟨hacyclic', hv⟩]
  exact congrArg Except.ok (namesOf_twins htwins)

/-- Networks with one description answer all questions alike. -/
theorem sameAnswers_of_describe_eq (hw : net.WellFormed) (hw' : net'.WellFormed)
    (hd : net.describe = net'.describe) : SameAnswers net net' := by
  have hcheck := checkAcyclic_eq_of_describe_eq hw hw' hd
  cases hr : net.checkAcyclic with
  | error fault =>
    -- Everything is refused with the fault of the search for cycles.
    have hr' := hcheck ▸ hr
    have hf := Session.Served.fresh.ensureAcyclic_fails hw hr
    have hf' := Session.Served.fresh.ensureAcyclic_fails hw' hr'
    refine ⟨hcheck, ?_, fun stage => ?_, fun stage => ?_⟩
    · exact (Session.compile_fails_of_ensureAcyclic hf).1.trans
        (Session.compile_fails_of_ensureAcyclic hf').1.symm
    · exact (Session.assemble_fails_of_ensureAcyclic hf stage).1.trans
        (Session.assemble_fails_of_ensureAcyclic hf' stage).1.symm
    · rw [reachable_eq_error hr, reachable_eq_error hr']
      rfl
  | ok u =>
    have hacyclic := hw.checkAcyclic_eq_ok_iff.1 hr
    have hacyclic' := hw'.checkAcyclic_eq_ok_iff.1 (hcheck ▸ hr)
    have hsame := (pairing_of_describe_eq hw hw' hd).sameLivePart hw hw'
    have hsettings : net.settings = net'.settings := congrArg Description.settings hd
    refine ⟨hcheck, ?_, fun stage => ?_, reachable_names_eq hw hw' hacyclic hacyclic' hsame⟩
    · exact (Session.compile_alike hw hw' hsame hsettings hacyclic hacyclic').result_eq
        Session.matching_fresh
    · exact (Session.assemble_alike hw hw' hsame hsettings hacyclic hacyclic' stage).result_eq
        Session.matching_fresh

/-- What comes of a network that is described and built again. -/
structure Rebuilds (net : Network) : Prop where
  /-- The description is accepted. -/
  built : (build net.describe).result = .ok ()
  /-- What is built arises by calls again. -/
  arises : (build net.describe).state.Arises
  /-- It is described as the network was. -/
  describe : (build net.describe).state.describe = net.describe
  /-- It answers all questions as the network does. -/
  sameAnswers : SameAnswers net (build net.describe).state

/-- A network that arises by calls, with or without cycles, survives being described and built
    again. -/
theorem Arises.rebuilds (h : net.Arises) : net.Rebuilds := by
  have hw := h.wellFormed
  obtain ⟨hbuilt, hdescribe⟩ := hw.build_describe
  have hw' := wellFormed_build hbuilt
  have hafter : net.after (.load net.describe) = (build net.describe).state := by
    simp [Network.after, hbuilt]
  have hfits : (net.after (.load net.describe)).Fits := by
    have hlength := (namesakes_handlesInOrder hw' hw hdescribe).length_eq
    simp only [handlesInOrder, List.length_append, Array.length_toList] at hlength
    rw [hafter, Fits, size, Nat.add_right_cancel hlength]
    exact h.fits
  refine ⟨hbuilt, hafter ▸ h.call (.load net.describe) hfits, hdescribe, ?_⟩
  exact sameAnswers_of_describe_eq hw hw' hdescribe.symm

/-- A history that uses a place twice, and one with a cycle. -/
theorem rebuilds_histories : windingHistory.Arises ∧ windingHistory.Rebuilds
    ∧ sideLoop.Arises ∧ sideLoop.Rebuilds := by
  have h : windingHistory.Arises := (Arises.new {}).run (by decide +kernel)
  have h' : sideLoop.Arises := (Arises.new {}).run (by decide +kernel)
  exact ⟨h, h.rebuilds, h', h'.rebuilds⟩

end Network

end MaterialNet
